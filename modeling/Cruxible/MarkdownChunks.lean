import Cruxible.PropertyValidation

/-!
# Markdown chunks of a source document

A registered document is cut into citable chunks: its front matter, one section
for every heading, and one chunk for every block. The chunker hashes the text of
the lines it cuts and the reader later cuts the lines again from the stored
range; the two slices are written differently and agree on every range with at
least one line.
-/
namespace Cruxible.MarkdownChunks
open PythonDict Cruxible.Graph PropertyValidation Fallible

/-- A block token of the Markdown parser, with the lines it covers. -/
structure Token where
  type : String
  tag : String := ""
  map : Option (Nat × Nat) := none
  content : String := ""

/-- The digest and the Markdown parser, which live outside the repository. The
map of a token is the first line it covers and the line after the last. -/
structure DocumentRuntime where
  sha256 : ByteArray → String
  parse : String → List Token
  parse_covers : ∀ text, ∀ t ∈ parse text, ∀ m ∈ t.map, m.1 < m.2

structure SourceArtifactChunk where
  chunkId : String
  headingPath : List String
  blockSelector : String
  blockType : String
  contentHash : String
  lineStart : Nat
  lineEnd : Nat
  preview : Option String
  label : Option String
  deriving DecidableEq

def markdownChunksV1 : String := "markdown_chunks_v1"

def replaceCrlf : List Char → List Char
  | '\r' :: '\n' :: cs => '\n' :: replaceCrlf cs
  | c :: cs => c :: replaceCrlf cs
  | [] => []

/-- `_normalize_line_endings`. -/
def normalizeLineEndings (text : String) : String :=
  String.ofList ((replaceCrlf text.toList).map (fun c => if c = '\r' then '\n' else c))

/-- The line boundaries of `str.splitlines`. -/
def isLineBoundary (c : Char) : Bool :=
  let n := c.toNat
  (10 ≤ n && n ≤ 13) || (28 ≤ n && n ≤ 30) || n == 0x85 || n == 0x2028 || n == 0x2029

def splitlinesFrom (current : List Char) : List Char → List String
  | [] => if current = [] then [] else [String.ofList current.reverse]
  | '\r' :: '\n' :: cs => String.ofList current.reverse :: splitlinesFrom [] cs
  | c :: cs =>
      if isLineBoundary c then String.ofList current.reverse :: splitlinesFrom [] cs
      else splitlinesFrom (c :: current) cs

/-- `str.splitlines`. -/
def splitlines (text : String) : List String := splitlinesFrom [] text.toList

/-- `"\n".join(lines[start:stop])`. -/
def joinSlice (lines : List String) (start stop : Nat) : String :=
  "\n".intercalate ((lines.take stop).drop start)

/-- Runs of whitespace become one blank. -/
def compactSpaces : List Char → List Char
  | [] => []
  | c :: cs =>
      if isSpace c then
        match compactSpaces cs with
        | ' ' :: rest => ' ' :: rest
        | rest => ' ' :: rest
      else c :: compactSpaces cs

def previewChars : Nat := 240

/-- `_preview`. -/
def preview (value : String) : Option String :=
  let compact := (strip (String.ofList (compactSpaces value.toList))).toList
  if compact = [] then none
  else if compact.length ≤ previewChars then some (String.ofList compact)
  else some (String.ofList
    ((compact.take (previewChars - 1)).reverse.dropWhile isSpace).reverse ++ "...")

def sha256Text (rt : DocumentRuntime) (value : String) : String :=
  "sha256:" ++ rt.sha256 value.toUTF8

def hexDigit (n : Nat) : Char := "0123456789abcdef".toList.getD n '0'

/-- A string literal of the canonical serializer. -/
def jsonString (s : String) : String :=
  "\"" ++ String.join (s.toList.map fun c =>
    if c = '"' then "\\\"" else if c = '\\' then "\\\\"
    else if c = '\n' then "\\n" else if c = '\r' then "\\r" else if c = '\t' then "\\t"
    else if c.toNat = 8 then "\\b" else if c.toNat = 12 then "\\f"
    else if c.toNat < 32 then
      "\\u00" ++ String.ofList [hexDigit (c.toNat / 16), hexDigit (c.toNat % 16)]
    else String.singleton c) ++ "\""

/-- The canonical text of a chunk's identity, keys in order. -/
def chunkIdentity (sourceArtifactId parserVersion : String) (headingPath : List String)
    (blockSelector : String) : String :=
  "\x7b\"block_selector\":" ++ jsonString blockSelector ++ ",\"heading_path\":[" ++
    ",".intercalate (headingPath.map jsonString) ++ "],\"parser_version\":" ++
    jsonString parserVersion ++ ",\"source_artifact_id\":" ++ jsonString sourceArtifactId ++ "\x7d"

/-- `_chunk`. -/
def chunk (rt : DocumentRuntime) (sourceArtifactId parserVersion : String)
    (headingPath : List String) (blockSelector blockType : String) (lineStart lineEnd : Nat)
    (lines : List String) (label : Option String) : SourceArtifactChunk :=
  let body := joinSlice lines (lineStart - 1) (max lineEnd lineStart)
  let digest := rt.sha256
    (chunkIdentity sourceArtifactId parserVersion headingPath blockSelector).toUTF8
  { chunkId := "mdchunk_" ++ String.ofList (digest.toList.take 16), headingPath := headingPath,
    blockSelector := blockSelector, blockType := blockType, contentHash := sha256Text rt body,
    lineStart := lineStart, lineEnd := lineEnd, preview := preview body, label := label }

/-- The lines of a document. -/
def documentLines (text : String) : List String := splitlines (normalizeLineEndings text)

/-- `_chunk_body`, on decoded content. -/
def chunkBody (text : String) (c : SourceArtifactChunk) : String :=
  joinSlice (documentLines text) (c.lineStart - 1) c.lineEnd

/-- `_front_matter_end_line`. -/
def frontMatterEndLine : List String → Option Nat
  | [] => none
  | first :: rest =>
      if strip first ≠ "---" then none
      else ((rest.zipIdx 2).find? (fun p => strip p.1 = "---")).map Prod.snd

def decimalDigit (c : Char) : Option Nat :=
  if '0' ≤ c ∧ c ≤ '9' then some (c.toNat - 48) else none

/-- `int(...)` of an unsigned decimal literal. -/
def pyInt (text : List Char) : Except CoreError Nat :=
  match text, text.mapM decimalDigit with
  | _ :: _, some digits => .ok (digits.foldl (fun n d => 10 * n + d) 0)
  | _, _ => .error (.value ("invalid literal for int() with base 10: '" ++ String.ofList text ++ "'"))

/-- `int(token.tag.removeprefix("h") or "1")`. -/
def headingLevel (tag : String) : Except CoreError Nat :=
  let rest := match tag.toList with
    | 'h' :: cs => cs
    | cs => cs
  if rest = [] then .ok 1 else pyInt rest

structure HeadingEvent where
  level : Nat
  title : String
  lineStart : Nat

def inlineTitle : List Token → String
  | next :: _ => if next.type = "inline" then strip next.content else ""
  | [] => ""

/-- `_heading_events`. -/
def headingEvents (frontMatterEnd : Option Nat) : List Token → Except CoreError (List HeadingEvent)
  | [] => .ok []
  | t :: rest =>
      match t.map with
      | none => headingEvents frontMatterEnd rest
      | some m =>
          if t.type = "heading_open" ∧ frontMatterEnd.any (fun e => m.1 + 1 ≤ e) = false then do
            let level ← headingLevel t.tag
            let events ← headingEvents frontMatterEnd rest
            return { level := level, title := inlineTitle rest, lineStart := m.1 + 1 } :: events
          else headingEvents frontMatterEnd rest

/-- The open headings after one more. -/
def pushHeading (stack : List (Nat × String)) (level : Nat) (title : String) :
    List (Nat × String) :=
  stack.filter (fun h => h.1 < level) ++ [(level, title)]

/-- `_heading_path_by_line`. -/
def headingPathByLine (count : Nat) (events : List HeadingEvent) : Dict Nat (List String) :=
  let byLine : Dict Nat (Nat × String) :=
    Dict.ofList (events.map fun e => (e.lineStart, (e.level, e.title)))
  ((List.range' 1 count).foldl (fun (acc : List (Nat × String) × Dict Nat (List String)) line =>
    let stack := match byLine.get? line with
      | some (level, title) => pushHeading acc.1 level title
      | none => acc.1
    (stack, acc.2.set line (stack.map Prod.snd))) ([], ∅)).2

/-- `_block_type`. -/
def blockType (t : Token) : Option String :=
  if t.type = "paragraph_open" then some "paragraph"
  else if t.type = "bullet_list_open" ∨ t.type = "ordered_list_open" then some "list"
  else if t.type = "list_item_open" then some "list_item"
  else if t.type = "fence" ∨ t.type = "code_block" then some "code_fence"
  else if t.type = "blockquote_open" then some "blockquote"
  else if t.type = "table_open" then some "table"
  else none

section Chunker
variable (rt : DocumentRuntime) (sourceArtifactId parserVersion : String) (lines : List String)

def frontMatterChunks : List SourceArtifactChunk :=
  match frontMatterEndLine lines with
  | none => []
  | some e => [chunk rt sourceArtifactId parserVersion [] "front_matter" "front_matter" 1 e lines
      (some "front matter")]

/-- The section loop: a section ends before the next heading that is not below
its own. -/
def sectionChunks : List (Nat × String) → List HeadingEvent → List SourceArtifactChunk
  | _, [] => []
  | stack, e :: rest =>
      let stack := pushHeading stack e.level e.title
      let sectionEnd := match rest.find? (fun n => n.level ≤ e.level) with
        | some n => n.lineStart - 1
        | none => lines.length
      chunk rt sourceArtifactId parserVersion (stack.map Prod.snd) "section" "section" e.lineStart
        (max e.lineStart sectionEnd) lines (some e.title) :: sectionChunks stack rest

/-- The block loop, with the counters of `block_counts`. -/
def blockChunks (paths : Dict Nat (List String)) :
    Dict (List String) Nat → List Token → List SourceArtifactChunk
  | _, [] => []
  | counts, t :: rest =>
      match blockType t, t.map with
      | some kind, some m =>
          if (frontMatterEndLine lines).any (fun e => m.2 ≤ e) then blockChunks paths counts rest
          else
            let path := (paths.get? (m.1 + 1)).getD []
            let count := (counts.get? (path ++ [kind])).getD 0 + 1
            chunk rt sourceArtifactId parserVersion path (kind ++ ":" ++ toString count) kind
              (m.1 + 1) m.2 lines path.getLast? ::
                blockChunks paths (counts.set (path ++ [kind]) count) rest
      | _, _ => blockChunks paths counts rest

end Chunker

/-- The order of chunks, in a listing as in the parser's result. -/
def ChunkLe (a b : SourceArtifactChunk) : Prop :=
  a.lineStart < b.lineStart ∨ a.lineStart = b.lineStart ∧
    (a.blockSelector < b.blockSelector ∨ a.blockSelector = b.blockSelector ∧ a.chunkId ≤ b.chunkId)

instance : DecidableRel ChunkLe := fun a b => by
  unfold ChunkLe
  exact inferInstance

/-- `parse_markdown_chunks`, on decoded content. -/
def parseMarkdownChunks (rt : DocumentRuntime) (sourceArtifactId text parserVersion : String) :
    Except CoreError (List SourceArtifactChunk) := do
  let lines := documentLines text
  let tokens := rt.parse (normalizeLineEndings text)
  let events ← headingEvents (frontMatterEndLine lines) tokens
  return (frontMatterChunks rt sourceArtifactId parserVersion lines ++
    sectionChunks rt sourceArtifactId parserVersion lines [] events ++
    blockChunks rt sourceArtifactId parserVersion lines (headingPathByLine lines.length events) ∅
      tokens).insertionSort ChunkLe

/-- A chunk that covers at least one line and whose hash is that of these lines. -/
structure Cut (rt : DocumentRuntime) (lines : List String) (c : SourceArtifactChunk) : Prop where
  covers : c.lineStart ≤ c.lineEnd
  hashed : c.contentHash = sha256Text rt (joinSlice lines (c.lineStart - 1) c.lineEnd)

section Cuts
variable {rt : DocumentRuntime} {sourceArtifactId parserVersion : String} {lines : List String}

theorem cut_chunk {path : List String} {selector kind : String} {a b : Nat} {label : Option String}
    (hab : a ≤ b) :
    Cut rt lines (chunk rt sourceArtifactId parserVersion path selector kind a b lines label) where
  covers := hab
  hashed := by
    have hmax : max b a = b := by omega
    simp only [chunk, hmax]

theorem cut_frontMatter :
    ∀ c ∈ frontMatterChunks rt sourceArtifactId parserVersion lines, Cut rt lines c := by
  intro c hc
  unfold frontMatterChunks at hc
  split at hc
  · cases hc
  · rename_i e he
    rw [List.mem_singleton.mp hc]
    apply cut_chunk
    unfold frontMatterEndLine at he
    split at he
    · cases he
    · split_ifs at he
      obtain ⟨p, hp, rfl⟩ := Option.map_eq_some_iff.mp he
      have hbound := List.le_snd_of_mem_zipIdx (List.mem_of_find?_eq_some hp)
      omega

theorem cut_sections (stack : List (Nat × String)) (events : List HeadingEvent) :
    ∀ c ∈ sectionChunks rt sourceArtifactId parserVersion lines stack events, Cut rt lines c := by
  induction events generalizing stack with
  | nil =>
    intro c hc
    cases hc
  | cons e events ih =>
    intro c hc
    unfold sectionChunks at hc
    rcases List.mem_cons.mp hc with rfl | hc
    · apply cut_chunk
      omega
    · exact ih _ c hc

theorem cut_blocks {paths : Dict Nat (List String)} {counts : Dict (List String) Nat}
    {tokens : List Token} (hcovers : ∀ t ∈ tokens, ∀ m ∈ t.map, m.1 < m.2) :
    ∀ c ∈ blockChunks rt sourceArtifactId parserVersion lines paths counts tokens,
      Cut rt lines c := by
  induction tokens generalizing counts with
  | nil =>
    intro c hc
    cases hc
  | cons t tokens ih =>
    have hrest : ∀ x ∈ tokens, ∀ m ∈ x.map, m.1 < m.2 :=
      fun x hx => hcovers x (List.mem_cons_of_mem t hx)
    intro c hc
    unfold blockChunks at hc
    split at hc
    · rename_i kind m _ hm
      have hcover := hcovers t List.mem_cons_self m hm
      split_ifs at hc
      · exact ih hrest c hc
      · rcases List.mem_cons.mp hc with rfl | hc
        · apply cut_chunk
          omega
        · exact ih hrest c hc
    · exact ih hrest c hc

theorem chunkBody_hash {text : String} {chunks : List SourceArtifactChunk}
    (hparse : parseMarkdownChunks rt sourceArtifactId text parserVersion = .ok chunks)
    {c : SourceArtifactChunk} (hc : c ∈ chunks) : c.contentHash = sha256Text rt (chunkBody text c) := by
  unfold parseMarkdownChunks at hparse
  simp only at hparse
  obtain ⟨events, -, hparse⟩ := bind_eq_ok.mp hparse
  obtain rfl := pure_eq_ok.mp hparse
  rw [List.mem_insertionSort, List.mem_append, List.mem_append] at hc
  have hcut : Cut rt (documentLines text) c := by
    rcases hc with (hc | hc) | hc
    · exact cut_frontMatter c hc
    · exact cut_sections [] events c hc
    · exact cut_blocks (rt.parse_covers _) c hc
  exact hcut.hashed

end Cuts

end Cruxible.MarkdownChunks

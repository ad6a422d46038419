import Cruxible.MarkdownChunks
import Std.Data.String.ToNat

/-!
# Identities of Markdown chunks

The id of a chunk is the digest of its heading path and its selector. The blocks below one
heading path are numbered, so no two of them have the same identity. The sections are not:
they are told apart by their heading paths alone.
-/
namespace Cruxible.MarkdownChunks
open PythonDict Cruxible.Graph PropertyValidation Fallible

/-- A character of a string literal. -/
def escapeChar (c : Char) : List Char :=
  if c = '"' then ['\\', '"'] else if c = '\\' then ['\\', '\\']
  else if c = '\n' then ['\\', 'n'] else if c = '\r' then ['\\', 'r']
  else if c = '\t' then ['\\', 't']
  else if c.toNat = 8 then ['\\', 'b'] else if c.toNat = 12 then ['\\', 'f']
  else if c.toNat < 32 then
    ['\\', 'u', '0', '0', hexDigit (c.toNat / 16), hexDigit (c.toNat % 16)]
  else [c]

theorem toList_jsonString (s : String) :
    (jsonString s).toList = '"' :: (s.toList.flatMap escapeChar ++ ['"']) := by
  have hjoin : ∀ cs : List Char, (String.join (cs.map fun c =>
      if c = '"' then "\\\"" else if c = '\\' then "\\\\"
      else if c = '\n' then "\\n" else if c = '\r' then "\\r" else if c = '\t' then "\\t"
      else if c.toNat = 8 then "\\b" else if c.toNat = 12 then "\\f"
      else if c.toNat < 32 then
        "\\u00" ++ String.ofList [hexDigit (c.toNat / 16), hexDigit (c.toNat % 16)]
      else String.singleton c)).toList = cs.flatMap escapeChar := by
    intro cs
    induction cs with
    | nil => rfl
    | cons c cs ih =>
      rw [List.map_cons, String.join_cons, String.toList_append, ih, List.flatMap_cons]
      congr 1
      unfold escapeChar
      split_ifs <;> simp
  unfold jsonString
  rw [String.toList_append, String.toList_append, hjoin]
  rfl

def hexValue (c : Char) : Nat := "0123456789abcdef".toList.idxOf c

theorem hexValue_hexDigit : ∀ n : Fin 16, hexValue (hexDigit n) = n := by decide

/-- The first character that a string literal spells. -/
def unescape : List Char → Option (Char × List Char)
  | '\\' :: 'u' :: '0' :: '0' :: a :: b :: r =>
      some (Char.ofNat (16 * hexValue a + hexValue b), r)
  | '\\' :: 'n' :: r => some ('\n', r)
  | '\\' :: 'r' :: r => some ('\r', r)
  | '\\' :: 't' :: r => some ('\t', r)
  | '\\' :: 'b' :: r => some (Char.ofNat 8, r)
  | '\\' :: 'f' :: r => some (Char.ofNat 12, r)
  | '\\' :: c :: r => some (c, r)
  | c :: r => some (c, r)
  | [] => none

theorem unescape_escapeChar (c : Char) (r : List Char) :
    unescape (escapeChar c ++ r) = some (c, r) := by
  unfold escapeChar
  split_ifs with hquote hback hn hr ht hb hf hcontrol
  · simp [unescape, hquote]
  · simp [unescape, hback]
  · simp [unescape, hn]
  · simp [unescape, hr]
  · simp [unescape, ht]
  · have hc : Char.ofNat 8 = c := by rw [← hb, Char.ofNat_toNat]
    simpa [unescape] using hc
  · have hc : Char.ofNat 12 = c := by rw [← hf, Char.ofNat_toNat]
    simpa [unescape] using hc
  · have hhigh := hexValue_hexDigit ⟨c.toNat / 16, by omega⟩
    have hlow := hexValue_hexDigit ⟨c.toNat % 16, by omega⟩
    have hcode : 16 * (c.toNat / 16) + c.toNat % 16 = c.toNat := by omega
    simp only at hhigh hlow
    simp [unescape, hhigh, hlow, hcode]
  · rw [List.singleton_append]
    unfold unescape
    split <;> simp_all

variable {r r' : List Char}

theorem escapeChar_cancel {c d : Char} (h : escapeChar c ++ r = escapeChar d ++ r') :
    c = d ∧ r = r' := by
  have hread := unescape_escapeChar c r
  rw [h, unescape_escapeChar] at hread
  obtain ⟨rfl, rfl⟩ := Prod.mk.inj (Option.some.inj hread)
  exact ⟨rfl, rfl⟩

theorem quote_ne_escapeChar {c : Char} : '"' :: r ≠ escapeChar c ++ r' := by
  unfold escapeChar
  split_ifs with hquote
  all_goals
    intro h
    rw [List.cons_append] at h
    first
      | exact absurd (List.cons.inj h).1 (by decide)
      | exact hquote (List.cons.inj h).1.symm

theorem escaped_cancel {s t : List Char}
    (h : s.flatMap escapeChar ++ '"' :: r = t.flatMap escapeChar ++ '"' :: r') :
    s = t ∧ r = r' := by
  induction s generalizing t with
  | nil =>
    cases t with
    | nil => exact ⟨rfl, (List.cons.inj h).2⟩
    | cons d t =>
      rw [List.flatMap_cons, List.append_assoc] at h
      exact absurd h quote_ne_escapeChar
  | cons c s ih =>
    cases t with
    | nil =>
      rw [List.flatMap_cons, List.append_assoc] at h
      exact absurd h.symm quote_ne_escapeChar
    | cons d t =>
      rw [List.flatMap_cons, List.flatMap_cons, List.append_assoc, List.append_assoc] at h
      obtain ⟨rfl, hrest⟩ := escapeChar_cancel h
      obtain ⟨rfl, hr⟩ := ih hrest
      exact ⟨rfl, hr⟩

theorem jsonString_cancel {s t : String}
    (h : (jsonString s).toList ++ r = (jsonString t).toList ++ r') : s = t ∧ r = r' := by
  rw [toList_jsonString, toList_jsonString, List.cons_append, List.cons_append,
    List.append_assoc, List.append_assoc] at h
  obtain ⟨hchars, hr⟩ := escaped_cancel (List.cons.inj h).2
  exact ⟨String.toList_inj.mp hchars, hr⟩

/-- The items of a list after the first. -/
def laterItems (texts : List String) : List Char :=
  texts.flatMap fun t => ',' :: (jsonString t).toList

theorem intercalate_cons (s : String) (texts : List String) :
    (",".intercalate ((s :: texts).map jsonString)).toList =
      (jsonString s).toList ++ laterItems texts := by
  induction texts generalizing s with
  | nil => simp [laterItems]
  | cons t texts ih =>
    rw [List.map_cons, String.intercalate_cons_of_ne_nil (by simp), String.toList_append,
      String.toList_append, ih]
    simp [laterItems]

theorem laterItems_cancel {xs ys : List String} {r r' : List Char}
    (h : laterItems xs ++ ']' :: r = laterItems ys ++ ']' :: r') : xs = ys ∧ r = r' := by
  unfold laterItems at h
  induction xs generalizing ys with
  | nil =>
    cases ys with
    | nil => exact ⟨rfl, (List.cons.inj h).2⟩
    | cons y ys => exact absurd (List.cons.inj h).1 (by decide)
  | cons x xs ih =>
    cases ys with
    | nil => exact absurd (List.cons.inj h).1 (by decide)
    | cons y ys =>
      rw [List.flatMap_cons, List.flatMap_cons, List.append_assoc, List.append_assoc] at h
      obtain ⟨rfl, hrest⟩ := jsonString_cancel (List.cons.inj h).2
      obtain ⟨rfl, hr⟩ := ih hrest
      exact ⟨rfl, hr⟩

theorem path_cancel {p q : List String} {r r' : List Char}
    (h : (",".intercalate (p.map jsonString)).toList ++ ']' :: r =
      (",".intercalate (q.map jsonString)).toList ++ ']' :: r') : p = q ∧ r = r' := by
  cases p with
  | nil =>
    cases q with
    | nil => exact ⟨rfl, (List.cons.inj h).2⟩
    | cons t q =>
      rw [intercalate_cons, toList_jsonString] at h
      exact absurd (List.cons.inj h).1 (by decide)
  | cons s p =>
    cases q with
    | nil =>
      rw [intercalate_cons, toList_jsonString] at h
      exact absurd (List.cons.inj h).1 (by decide)
    | cons t q =>
      rw [intercalate_cons, intercalate_cons, List.append_assoc, List.append_assoc] at h
      obtain ⟨rfl, hrest⟩ := jsonString_cancel h
      obtain ⟨rfl, hr⟩ := laterItems_cancel hrest
      exact ⟨rfl, hr⟩

theorem chunkIdentity_inj {sourceArtifactId parserVersion : String} {p q : List String}
    {a b : String} (h : chunkIdentity sourceArtifactId parserVersion p a =
      chunkIdentity sourceArtifactId parserVersion q b) : p = q ∧ a = b := by
  obtain ⟨before, between, after, hshape⟩ : ∃ before between after : List Char, ∀ p a,
      (chunkIdentity sourceArtifactId parserVersion p a).toList = before ++
        ((jsonString a).toList ++ (between ++
          ((",".intercalate (p.map jsonString)).toList ++ ']' :: after))) := by
    have hclose : "],\"parser_version\":".toList = ']' :: ",\"parser_version\":".toList := rfl
    refine ⟨"\x7b\"block_selector\":".toList, ",\"heading_path\":[".toList,
      ",\"parser_version\":".toList ++ ((jsonString parserVersion).toList ++
        (",\"source_artifact_id\":".toList ++ ((jsonString sourceArtifactId).toList ++
          "\x7d".toList))), ?_⟩
    intro p a
    unfold chunkIdentity
    rw [String.toList_append, String.toList_append, String.toList_append, String.toList_append,
      String.toList_append, String.toList_append, String.toList_append, String.toList_append,
      hclose]
    simp only [List.append_assoc, List.cons_append]
  have hchars := congrArg String.toList h
  rw [hshape, hshape] at hchars
  obtain ⟨rfl, hrest⟩ := jsonString_cancel (List.append_cancel_left hchars)
  obtain ⟨rfl, _⟩ := path_cancel (List.append_cancel_left hrest)
  exact ⟨rfl, rfl⟩

/-- What tells the chunks of a document apart. -/
def SourceArtifactChunk.identity (c : SourceArtifactChunk) : List String × String :=
  (c.headingPath, c.blockSelector)

variable {kind : String}

theorem colon_not_mem_blockType {t : Token} (h : blockType t = some kind) : ':' ∉ kind.toList := by
  unfold blockType at h
  split_ifs at h
  all_goals
    obtain rfl := Option.some.inj h
    decide

theorem before_inj {x : Char} {as bs : List Char} (ha : x ∉ as) (hb : x ∉ bs)
    (h : as ++ x :: r = bs ++ x :: r') : as = bs ∧ r = r' := by
  induction as generalizing bs with
  | nil =>
    cases bs with
    | nil => exact ⟨rfl, (List.cons.inj h).2⟩
    | cons b bs =>
      rw [(List.cons.inj h).1] at hb
      exact absurd List.mem_cons_self hb
  | cons a as ih =>
    cases bs with
    | nil =>
      rw [← (List.cons.inj h).1] at ha
      exact absurd List.mem_cons_self ha
    | cons b bs =>
      rw [List.mem_cons, not_or] at ha hb
      obtain ⟨hab, hrest⟩ := List.cons.inj h
      obtain ⟨rfl, hr⟩ := ih ha.2 hb.2 hrest
      exact ⟨by rw [hab], hr⟩

theorem selector_cancel {kind' : String} {n n' : Nat} (hk : ':' ∉ kind.toList)
    (hk' : ':' ∉ kind'.toList) (h : kind ++ ":" ++ toString n = kind' ++ ":" ++ toString n') :
    kind = kind' ∧ n = n' := by
  have hchars := congrArg String.toList h
  rw [String.toList_append, String.toList_append, String.toList_append, String.toList_append,
    List.append_assoc, List.append_assoc] at hchars
  obtain ⟨hkinds, hnumbers⟩ := before_inj hk hk' hchars
  exact ⟨String.toList_inj.mp hkinds, Nat.repr_injective (String.toList_inj.mp hnumbers)⟩

/-- The path of every heading. -/
def headingPaths : List (Nat × String) → List HeadingEvent → List (List String)
  | _, [] => []
  | stack, e :: rest =>
      let stack := pushHeading stack e.level e.title
      stack.map Prod.snd :: headingPaths stack rest

section Chunks

variable {rt : DocumentRuntime} {sourceArtifactId parserVersion : String} {lines : List String}

theorem sectionChunks_identity (stack : List (Nat × String)) (events : List HeadingEvent) :
    (sectionChunks rt sourceArtifactId parserVersion lines stack events).map
        SourceArtifactChunk.identity =
      (headingPaths stack events).map fun p => (p, "section") := by
  induction events generalizing stack with
  | nil => rfl
  | cons e events ih =>
    rw [sectionChunks, headingPaths, List.map_cons, List.map_cons, ih]
    rfl

variable {paths : Dict Nat (List String)} {tokens : List Token} {counts : Dict (List String) Nat}
  {events : List HeadingEvent}

theorem blockChunks_numbered :
    ∀ c ∈ blockChunks rt sourceArtifactId parserVersion lines paths counts tokens,
      ∃ kind n, ':' ∉ kind.toList ∧ c.blockSelector = kind ++ ":" ++ toString n ∧
        (counts.get? (c.headingPath ++ [kind])).getD 0 < n := by
  induction tokens generalizing counts with
  | nil =>
    intro c hc
    cases hc
  | cons t tokens ih =>
    intro c hc
    unfold blockChunks at hc
    split at hc
    · rename_i kind m hkind _
      split_ifs at hc
      · exact ih c hc
      · rcases List.mem_cons.mp hc with rfl | hc
        · exact ⟨kind, _, colon_not_mem_blockType hkind, rfl, Nat.lt_succ_self _⟩
        · obtain ⟨kind', n, hcolon, hselector, hn⟩ := ih c hc
          refine ⟨kind', n, hcolon, hselector, lt_of_le_of_lt ?_ hn⟩
          rw [Dict.get?_set]
          split_ifs with hkey
          · rw [hkey, Option.getD_some]
            omega
          · exact le_refl _
    · exact ih c hc

theorem blockChunks_nodup :
    ((blockChunks rt sourceArtifactId parserVersion lines paths counts tokens).map
      SourceArtifactChunk.identity).Nodup := by
  induction tokens generalizing counts with
  | nil => exact List.nodup_nil
  | cons t tokens ih =>
    unfold blockChunks
    split
    · rename_i kind m hkind _
      split_ifs
      · exact ih
      · rw [List.map_cons, List.nodup_cons]
        refine ⟨?_, ih⟩
        intro hmem
        obtain ⟨c, hc, hidentity⟩ := List.mem_map.mp hmem
        have hpath : c.headingPath = (paths.get? (m.1 + 1)).getD [] := (Prod.mk.inj hidentity).1
        have hsame := (Prod.mk.inj hidentity).2
        obtain ⟨kind', n, hcolon, hselector, hn⟩ := blockChunks_numbered c hc
        rw [hselector] at hsame
        obtain ⟨rfl, rfl⟩ := selector_cancel hcolon (colon_not_mem_blockType hkind) hsame
        rw [hpath, Dict.get?_set, if_pos rfl] at hn
        simp at hn
    · exact ih

theorem identities_nodup_iff :
    ((frontMatterChunks rt sourceArtifactId parserVersion lines ++
      sectionChunks rt sourceArtifactId parserVersion lines [] events ++
      blockChunks rt sourceArtifactId parserVersion lines paths ∅ tokens).map
        SourceArtifactChunk.identity).Nodup ↔ (headingPaths [] events).Nodup := by
  have hfront : ∀ p ∈ (frontMatterChunks rt sourceArtifactId parserVersion lines).map
      SourceArtifactChunk.identity, p.2 = "front_matter" := by
    intro p hp
    obtain ⟨c, hc, rfl⟩ := List.mem_map.mp hp
    unfold frontMatterChunks at hc
    split at hc
    · cases hc
    · rw [List.mem_singleton.mp hc]
      rfl
  have hfront_nodup : ((frontMatterChunks rt sourceArtifactId parserVersion lines).map
      SourceArtifactChunk.identity).Nodup := by
    unfold frontMatterChunks
    split
    · exact List.nodup_nil
    · exact List.nodup_singleton _
  have hblock : ∀ p ∈ (blockChunks rt sourceArtifactId parserVersion lines paths ∅ tokens).map
      SourceArtifactChunk.identity, ':' ∈ p.2.toList := by
    intro p hp
    obtain ⟨c, hc, rfl⟩ := List.mem_map.mp hp
    obtain ⟨kind, n, _, hselector, _⟩ := blockChunks_numbered c hc
    simp [SourceArtifactChunk.identity, hselector, String.toList_append]
  rw [List.map_append, List.map_append, sectionChunks_identity, List.nodup_append,
    List.nodup_append]
  constructor
  · rintro ⟨⟨_, hsections, _⟩, _⟩
    exact hsections.of_map _
  · intro hpaths
    refine ⟨⟨hfront_nodup, hpaths.map fun p q h => (Prod.mk.inj h).1, ?_⟩, blockChunks_nodup, ?_⟩
    · intro p hp q hq heq
      obtain ⟨path, _, rfl⟩ := List.mem_map.mp hq
      have hselector := hfront p hp
      rw [heq] at hselector
      have hne : "section" ≠ "front_matter" := by decide
      exact hne hselector
    · intro p hp q hq heq
      have hcolon := hblock q hq
      rw [← heq] at hcolon
      have hplain : ':' ∉ "front_matter".toList ∧ ':' ∉ "section".toList := by decide
      rcases List.mem_append.mp hp with hp | hp
      · rw [hfront p hp] at hcolon
        exact hplain.1 hcolon
      · obtain ⟨path, _, rfl⟩ := List.mem_map.mp hp
        exact hplain.2 hcolon

/-- No two identities of the chunks share the first digits of their digests. -/
def NoCollision (rt : DocumentRuntime) (sourceArtifactId parserVersion : String)
    (chunks : List SourceArtifactChunk) : Prop :=
  ∀ a ∈ chunks, ∀ b ∈ chunks,
    (rt.sha256 (chunkIdentity sourceArtifactId parserVersion a.headingPath
        a.blockSelector).toUTF8).toList.take 16 =
      (rt.sha256 (chunkIdentity sourceArtifactId parserVersion b.headingPath
        b.blockSelector).toUTF8).toList.take 16 →
    chunkIdentity sourceArtifactId parserVersion a.headingPath a.blockSelector =
      chunkIdentity sourceArtifactId parserVersion b.headingPath b.blockSelector

/-- The id that the chunker gives to an identity. -/
def idOf (rt : DocumentRuntime) (sourceArtifactId parserVersion : String)
    (identity : List String × String) : String :=
  "mdchunk_" ++ String.ofList ((rt.sha256 (chunkIdentity sourceArtifactId parserVersion identity.1
    identity.2).toUTF8).toList.take 16)

theorem ids_nodup_iff {chunks : List SourceArtifactChunk}
    (hids : ∀ c ∈ chunks, c.chunkId = idOf rt sourceArtifactId parserVersion c.identity)
    (hdigest : NoCollision rt sourceArtifactId parserVersion chunks) :
    (chunks.map SourceArtifactChunk.chunkId).Nodup ↔
      (chunks.map SourceArtifactChunk.identity).Nodup := by
  have hmap : chunks.map SourceArtifactChunk.chunkId =
      (chunks.map SourceArtifactChunk.identity).map (idOf rt sourceArtifactId parserVersion) := by
    rw [List.map_map]
    exact List.map_congr_left hids
  rw [hmap]
  constructor
  · exact List.Nodup.of_map _
  · intro hn
    refine hn.map_on ?_
    intro p hp q hq heq
    obtain ⟨a, ha, rfl⟩ := List.mem_map.mp hp
    obtain ⟨b, hb, rfl⟩ := List.mem_map.mp hq
    have hdigits := congrArg String.toList heq
    simp only [idOf, String.toList_append, String.toList_ofList] at hdigits
    obtain ⟨hpath, hselector⟩ := chunkIdentity_inj (hdigest a ha b hb
      (List.append_cancel_left hdigits))
    exact Prod.ext hpath hselector

theorem chunkId_eq :
    ∀ c ∈ frontMatterChunks rt sourceArtifactId parserVersion lines ++
      sectionChunks rt sourceArtifactId parserVersion lines [] events ++
      blockChunks rt sourceArtifactId parserVersion lines paths ∅ tokens,
      c.chunkId = idOf rt sourceArtifactId parserVersion c.identity := by
  have hsections : ∀ stack, ∀ c ∈ sectionChunks rt sourceArtifactId parserVersion lines stack
      events, c.chunkId = idOf rt sourceArtifactId parserVersion c.identity := by
    induction events with
    | nil =>
      intro stack c hc
      cases hc
    | cons e events ih =>
      intro stack c hc
      rcases List.mem_cons.mp hc with rfl | hc
      · rfl
      · exact ih _ c hc
  have hblocks : ∀ counts, ∀ c ∈ blockChunks rt sourceArtifactId parserVersion lines paths counts
      tokens, c.chunkId = idOf rt sourceArtifactId parserVersion c.identity := by
    induction tokens with
    | nil =>
      intro counts c hc
      cases hc
    | cons t tokens ih =>
      intro counts c hc
      unfold blockChunks at hc
      split at hc
      · split_ifs at hc
        · exact ih _ c hc
        · rcases List.mem_cons.mp hc with rfl | hc
          · rfl
          · exact ih _ c hc
      · exact ih _ c hc
  intro c hc
  rcases List.mem_append.mp hc with hc | hc
  · rcases List.mem_append.mp hc with hc | hc
    · unfold frontMatterChunks at hc
      split at hc
      · cases hc
      · rw [List.mem_singleton.mp hc]
        rfl
    · exact hsections _ c hc
  · exact hblocks _ c hc

end Chunks

end Cruxible.MarkdownChunks

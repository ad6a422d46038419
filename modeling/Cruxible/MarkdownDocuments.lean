import Cruxible.MarkdownLines

/-!
# Markdown documents with addressable chunks

A document has distinct chunk ids and chunks with the text of their tokens exactly if no two
of its headings have the same path, and `str.splitlines` finds the lines that its chunks
cover where the Markdown parser counted them.
-/
namespace Cruxible.MarkdownChunks
open PythonDict Cruxible.Graph PropertyValidation Fallible

/-- What the Markdown parser says of its tokens: they lie in the lines it counted, and a
heading has a level. -/
structure BlockParser (rt : DocumentRuntime) : Prop where
  inside : ∀ text, ∀ t ∈ rt.parse (normalizeLineEndings text), ∀ m ∈ t.map,
    m.2 ≤ (newlineLines text).length
  levels : ∀ text, ∀ t ∈ rt.parse text, t.type = "heading_open" →
    ∃ level, headingLevel t.tag = .ok level

/-- The headings that are open after some: those below which all later ones lie. -/
def openHeadings : List HeadingEvent → List HeadingEvent
  | [] => []
  | e :: rest =>
      if rest.all (fun n => e.level < n.level) then e :: openHeadings rest
      else openHeadings rest

/-- The titles on the way to a heading. -/
def pathOf (events : List HeadingEvent) (i : Nat) : List String :=
  (openHeadings (events.take (i + 1))).map HeadingEvent.title

/-- No two headings have the same titles on their ways. -/
def DistinctPaths (events : List HeadingEvent) : Prop :=
  ∀ i j, i < j → j < events.length → pathOf events i ≠ pathOf events j

/-- The stack of the section loop. -/
def stackOf (events : List HeadingEvent) : List (Nat × String) :=
  (openHeadings events).map fun h => (h.level, h.title)

theorem openHeadings_append (events : List HeadingEvent) (e : HeadingEvent) :
    openHeadings (events ++ [e]) =
      (openHeadings events).filter (fun h => h.level < e.level) ++ [e] := by
  induction events with
  | nil => rfl
  | cons d events ih =>
    rw [List.cons_append, openHeadings, openHeadings, ih, List.all_append]
    by_cases hall : events.all (fun n => d.level < n.level) = true
    · by_cases hlevel : d.level < e.level
      · simp [hall, hlevel]
      · simp [hall, hlevel]
    · simp [hall]

theorem pushHeading_stackOf (events : List HeadingEvent) (e : HeadingEvent) :
    pushHeading (stackOf events) e.level e.title = stackOf (events ++ [e]) := by
  unfold pushHeading stackOf
  rw [openHeadings_append, List.map_append, List.filter_map]
  rfl

theorem headingPaths_eq (before rest : List HeadingEvent) :
    headingPaths (stackOf before) rest =
      (List.range' before.length rest.length).map (pathOf (before ++ rest)) := by
  induction rest generalizing before with
  | nil => rfl
  | cons e rest ih =>
    have hrest := ih (before ++ [e])
    rw [List.append_assoc, List.singleton_append, List.length_append, List.length_singleton]
      at hrest
    have hpath : pathOf (before ++ e :: rest) before.length =
        (stackOf (before ++ [e])).map Prod.snd := by
      unfold pathOf stackOf
      rw [List.take_append, List.take_of_length_le (Nat.le_succ _), Nat.add_sub_cancel_left,
        List.map_map]
      rfl
    rw [headingPaths, pushHeading_stackOf, hrest, List.length_cons, List.range'_succ,
      List.map_cons, hpath]

theorem headingPaths_nodup_iff (events : List HeadingEvent) :
    (headingPaths [] events).Nodup ↔ DistinctPaths events := by
  have hpaths := headingPaths_eq [] events
  rw [List.nil_append, List.length_nil] at hpaths
  change headingPaths [] events = _ at hpaths
  have hat : ∀ i, i < events.length → (headingPaths [] events)[i]? = some (pathOf events i) := by
    intro i hi
    rw [hpaths, List.getElem?_map, List.getElem?_range' hi]
    simp
  have hlength : (headingPaths [] events).length = events.length := by
    rw [hpaths, List.length_map, List.length_range']
  rw [List.nodup_iff_getElem?_ne_getElem?, hlength]
  constructor
  · intro h i j hij hj heq
    refine h i j hij hj ?_
    rw [hat i (by omega), hat j hj, heq]
  · intro h i j hij hj heq
    rw [hat i (by omega), hat j hj] at heq
    exact h i j hij hj (Option.some.inj heq)

/-- A line of a token that gets a chunk. -/
def BlockLine (frontMatterEnd : Option Nat) (tokens : List Token) (i : Nat) : Prop :=
  ∃ t ∈ tokens, ∃ m ∈ t.map, (blockType t).isSome ∧
    frontMatterEnd.any (fun e => m.2 ≤ e) = false ∧ m.1 ≤ i ∧ i < m.2

/-- A line, counted from zero, that some chunk of a document covers. -/
def CoveredLine (lines : List String) (tokens : List Token) (events : List HeadingEvent)
    (i : Nat) : Prop :=
  (∃ e ∈ frontMatterEndLine lines, i < e) ∨
    ((∃ e ∈ events, e.lineStart ≤ i + 1) ∧ i < lines.length) ∨
    BlockLine (frontMatterEndLine lines) tokens i

def SourceArtifactChunk.Covers (c : SourceArtifactChunk) (i : Nat) : Prop :=
  c.lineStart ≤ i + 1 ∧ i < c.lineEnd

section Coverage

variable {rt : DocumentRuntime} {sourceArtifactId parserVersion : String} {lines : List String}

theorem covered_frontMatter (i : Nat) :
    (∃ c ∈ frontMatterChunks rt sourceArtifactId parserVersion lines, c.Covers i) ↔
      ∃ e ∈ frontMatterEndLine lines, i < e := by
  unfold frontMatterChunks
  split
  case h_1 hnone => simp [hnone]
  case h_2 e he =>
    simp only [he, List.mem_singleton, exists_eq_left, Option.mem_some_iff, exists_eq_left',
      SourceArtifactChunk.Covers, chunk]
    omega

theorem covered_sections (stack : List (Nat × String)) {events : List HeadingEvent}
    (h : ∀ e ∈ events, 1 ≤ e.lineStart ∧ e.lineStart ≤ lines.length) (i : Nat) :
    (∃ c ∈ sectionChunks rt sourceArtifactId parserVersion lines stack events, c.Covers i) ↔
      (∃ e ∈ events, e.lineStart ≤ i + 1) ∧ i < lines.length := by
  induction events generalizing stack with
  | nil => simp [sectionChunks]
  | cons e events ih =>
    have hhead := h e List.mem_cons_self
    have hrest : ∀ n ∈ events, 1 ≤ n.lineStart ∧ n.lineStart ≤ lines.length :=
      fun n hn => h n (List.mem_cons_of_mem e hn)
    rw [sectionChunks]
    simp only [List.exists_mem_cons_iff, ih _ hrest]
    constructor
    · rintro (⟨hstart, hend⟩ | ⟨⟨n, hn, hstart⟩, hi⟩)
      · refine ⟨Or.inl hstart, ?_⟩
        simp only [chunk] at hend
        split at hend
        case h_1 n hfind =>
          have hn := hrest n (List.mem_of_find?_eq_some hfind)
          have hbefore : n.lineStart - 1 + 1 = n.lineStart := Nat.sub_add_cancel hn.1
          omega
        case h_2 => omega
      · exact ⟨Or.inr ⟨n, hn, hstart⟩, hi⟩
    · rintro ⟨hstart, hi⟩
      by_cases hlater : ∃ n ∈ events, n.lineStart ≤ i + 1
      · exact Or.inr ⟨hlater, hi⟩
      · have hfirst : e.lineStart ≤ i + 1 := hstart.resolve_right hlater
        refine Or.inl ⟨hfirst, ?_⟩
        simp only [chunk]
        split
        case h_1 n hfind =>
          have hbelow : ¬ n.lineStart ≤ i + 1 := fun hle =>
            hlater ⟨n, List.mem_of_find?_eq_some hfind, hle⟩
          have hbefore : i < n.lineStart - 1 := Nat.lt_sub_of_add_lt (Nat.lt_of_not_le hbelow)
          omega
        case h_2 => omega

theorem covered_blocks {paths : Dict Nat (List String)} {counts : Dict (List String) Nat}
    {tokens : List Token} (i : Nat) :
    (∃ c ∈ blockChunks rt sourceArtifactId parserVersion lines paths counts tokens,
      c.Covers i) ↔ BlockLine (frontMatterEndLine lines) tokens i := by
  unfold BlockLine
  induction tokens generalizing counts with
  | nil => simp [blockChunks]
  | cons t tokens ih =>
    rw [blockChunks, List.exists_mem_cons_iff]
    cases hkind : blockType t with
    | none => simp only [ih, Option.isSome_none, Bool.false_eq_true, false_and, and_false,
        exists_false, false_or]
    | some kind =>
      cases hm : t.map with
      | none => simp only [ih, Option.mem_def, reduceCtorEq, false_and, exists_false, false_or]
      | some m =>
        simp only [Option.mem_some_iff, exists_eq_left', Option.isSome_some, true_and]
        split_ifs with hfront
        · simp only [ih, hfront, Bool.true_eq_false, false_and, false_or]
        · rw [Bool.not_eq_true] at hfront
          simp only [List.exists_mem_cons_iff, ih, hfront, true_and]
          exact or_congr (and_congr Nat.add_le_add_iff_right Iff.rfl) Iff.rfl

end Coverage

theorem mem_headingEvents {frontMatterEnd : Option Nat} {tokens : List Token}
    {events : List HeadingEvent} (h : headingEvents frontMatterEnd tokens = .ok events) :
    ∀ e ∈ events, ∃ t ∈ tokens, ∃ m ∈ t.map, e.lineStart = m.1 + 1 := by
  induction tokens generalizing events with
  | nil =>
    obtain rfl := Except.ok.inj h
    intro e he
    cases he
  | cons t tokens ih =>
    have hlift : ∀ {later : List HeadingEvent}, headingEvents frontMatterEnd tokens = .ok later →
        ∀ e ∈ later, ∃ t' ∈ t :: tokens, ∃ m ∈ t'.map, e.lineStart = m.1 + 1 := by
      intro later hlater e he
      obtain ⟨t', ht', hm⟩ := ih hlater e he
      exact ⟨t', List.mem_cons_of_mem t ht', hm⟩
    rw [headingEvents] at h
    split at h
    case h_1 => exact hlift h
    case h_2 m hm =>
      split_ifs at h
      · obtain ⟨level, -, h⟩ := bind_eq_ok.mp h
        obtain ⟨later, hlater, h⟩ := bind_eq_ok.mp h
        obtain rfl := pure_eq_ok.mp h
        intro e he
        rcases List.mem_cons.mp he with rfl | he
        · exact ⟨t, List.mem_cons_self, m, hm, rfl⟩
        · exact hlift hlater e he
      · exact hlift h

theorem headingEvents_total {frontMatterEnd : Option Nat} {tokens : List Token}
    (h : ∀ t ∈ tokens, t.type = "heading_open" → ∃ level, headingLevel t.tag = .ok level) :
    ∃ events, headingEvents frontMatterEnd tokens = .ok events := by
  induction tokens with
  | nil => exact ⟨[], rfl⟩
  | cons t tokens ih =>
    obtain ⟨events, hevents⟩ := ih fun t' ht' => h t' (List.mem_cons_of_mem t ht')
    rw [headingEvents]
    split
    · exact ⟨events, hevents⟩
    · split_ifs with hheading
      · obtain ⟨level, hlevel⟩ := h t List.mem_cons_self hheading.1
        rw [hlevel, hevents]
        exact ⟨_, rfl⟩
      · exact ⟨events, hevents⟩

/-- The headings of a document. -/
def documentHeadings (rt : DocumentRuntime) (text : String) : List HeadingEvent :=
  match headingEvents (frontMatterEndLine (documentLines text))
      (rt.parse (normalizeLineEndings text)) with
  | .ok events => events
  | .error _ => []

/-- The chunks of a document before they are sorted. -/
def unsortedChunks (rt : DocumentRuntime) (sourceArtifactId text parserVersion : String) :
    List SourceArtifactChunk :=
  frontMatterChunks rt sourceArtifactId parserVersion (documentLines text) ++
    sectionChunks rt sourceArtifactId parserVersion (documentLines text) []
      (documentHeadings rt text) ++
    blockChunks rt sourceArtifactId parserVersion (documentLines text)
      (headingPathByLine (documentLines text).length (documentHeadings rt text)) ∅
      (rt.parse (normalizeLineEndings text))

/-- Chunks have ids of their own and the lines that the Markdown parser counted. -/
def Addressable (text : String) (chunks : List SourceArtifactChunk) : Prop :=
  (chunks.map SourceArtifactChunk.chunkId).Nodup ∧
    ∀ c ∈ chunks, chunkBody text c = joinSlice (newlineLines text) (c.lineStart - 1) c.lineEnd

section Documents

variable {rt : DocumentRuntime} (h : BlockParser rt)
  (sourceArtifactId text parserVersion : String)
include h

theorem headingEvents_eq :
    headingEvents (frontMatterEndLine (documentLines text))
      (rt.parse (normalizeLineEndings text)) = .ok (documentHeadings rt text) := by
  obtain ⟨events, hevents⟩ := @headingEvents_total (frontMatterEndLine (documentLines text)) _
    (h.levels (normalizeLineEndings text))
  rw [documentHeadings, hevents]

theorem parseMarkdownChunks_eq :
    parseMarkdownChunks rt sourceArtifactId text parserVersion =
      .ok ((unsortedChunks rt sourceArtifactId text parserVersion).insertionSort ChunkLe) := by
  unfold parseMarkdownChunks
  simp only [headingEvents_eq h text]
  rfl

theorem heading_lineStart :
    ∀ e ∈ documentHeadings rt text,
      1 ≤ e.lineStart ∧ e.lineStart ≤ (newlineLines text).length := by
  intro e he
  obtain ⟨t, ht, m, hm, hstart⟩ := mem_headingEvents (headingEvents_eq h text) e he
  have hcovers := rt.parse_covers _ t ht m hm
  have hinside := h.inside text t ht m hm
  omega

theorem unsortedChunks_start :
    ∀ c ∈ unsortedChunks rt sourceArtifactId text parserVersion,
      1 ≤ c.lineStart ∧ c.lineStart ≤ (newlineLines text).length := by
  have hsections : ∀ stack events, (∀ e ∈ events, 1 ≤ e.lineStart ∧
      e.lineStart ≤ (newlineLines text).length) →
      ∀ c ∈ sectionChunks rt sourceArtifactId parserVersion (documentLines text) stack events,
        1 ≤ c.lineStart ∧ c.lineStart ≤ (newlineLines text).length := by
    intro stack events hevents
    induction events generalizing stack with
    | nil =>
      intro c hc
      cases hc
    | cons e events ih =>
      intro c hc
      rcases List.mem_cons.mp hc with rfl | hc
      · exact hevents e List.mem_cons_self
      · exact ih _ (fun n hn => hevents n (List.mem_cons_of_mem e hn)) c hc
  have hblocks : ∀ paths counts tokens, (∀ t ∈ tokens, ∀ m ∈ t.map,
      m.1 < m.2 ∧ m.2 ≤ (newlineLines text).length) →
      ∀ c ∈ blockChunks rt sourceArtifactId parserVersion (documentLines text) paths counts tokens,
        1 ≤ c.lineStart ∧ c.lineStart ≤ (newlineLines text).length := by
    intro paths counts tokens htokens
    induction tokens generalizing counts with
    | nil =>
      intro c hc
      cases hc
    | cons t tokens ih =>
      have hrest := fun t' ht' => htokens t' (List.mem_cons_of_mem t ht')
      intro c hc
      unfold blockChunks at hc
      split at hc
      case h_1 kind m _ hm =>
        have hinside := htokens t List.mem_cons_self m hm
        split_ifs at hc
        · exact ih _ hrest c hc
        · rcases List.mem_cons.mp hc with rfl | hc
          · simp only [chunk]
            omega
          · exact ih _ hrest c hc
      case h_2 => exact ih _ hrest c hc
  intro c hc
  rcases List.mem_append.mp hc with hc | hc
  · rcases List.mem_append.mp hc with hc | hc
    · unfold frontMatterChunks at hc
      split at hc
      case h_1 => cases hc
      case h_2 e he =>
        have hlines : documentLines text ≠ [] := by
          intro hempty
          rw [hempty] at he
          cases he
        rw [documentLines_eq, Ne, linesBy_eq_nil] at hlines
        have hcount : newlineLines text ≠ [] := fun hempty => hlines (linesBy_eq_nil.mp hempty)
        rw [List.mem_singleton.mp hc]
        exact ⟨le_refl _, List.length_pos_of_ne_nil hcount⟩
    · exact hsections [] _ (heading_lineStart h text) c hc
  · refine hblocks _ _ _ ?_ c hc
    intro t ht m hm
    exact ⟨rt.parse_covers _ t ht m hm, h.inside text t ht m hm⟩

theorem chunkBody_eq_iff {c : SourceArtifactChunk}
    (hc : c ∈ unsortedChunks rt sourceArtifactId text parserVersion)
    (hcut : Cut rt (documentLines text) c) :
    chunkBody text c = joinSlice (newlineLines text) (c.lineStart - 1) c.lineEnd ↔
      ∀ i, c.Covers i → (documentLines text)[i]? = (newlineLines text)[i]? := by
  have hstart := unsortedChunks_start h sourceArtifactId text parserVersion c hc
  have hcount := length_newlineLines_le text
  have hcovers := hcut.covers
  have hdocument : ∀ l ∈ documentLines text, '\n' ∉ l.toList := by
    rw [documentLines_eq]
    exact not_mem_linesBy (by rfl) (by simp)
  have hnewline : ∀ l ∈ newlineLines text, '\n' ∉ l.toList :=
    not_mem_linesBy (by rfl) (by simp)
  unfold chunkBody
  rw [joinSlice_inj hdocument hnewline (by omega) (by omega) (by omega)]
  constructor
  · intro hlines i hi
    exact hlines i (by have := hi.1; omega) hi.2
  · intro hlines i hi hend
    exact hlines i ⟨by omega, hend⟩

theorem covered_iff (i : Nat) :
    (∃ c ∈ unsortedChunks rt sourceArtifactId text parserVersion, c.Covers i) ↔
      CoveredLine (documentLines text) (rt.parse (normalizeLineEndings text))
        (documentHeadings rt text) i := by
  have hcount := length_newlineLines_le text
  have hheadings : ∀ e ∈ documentHeadings rt text,
      1 ≤ e.lineStart ∧ e.lineStart ≤ (documentLines text).length := by
    intro e he
    have hstart := heading_lineStart h text e he
    omega
  unfold unsortedChunks CoveredLine
  simp only [List.mem_append, or_and_right, exists_or, or_assoc]
  exact or_congr (covered_frontMatter i)
    (or_congr (covered_sections [] hheadings i) (covered_blocks i))

/-- A document has addressable chunks if and only if its headings have paths of their own and
every line that a chunk covers is one that ends at a newline. -/
theorem addressable_iff :
    ∃ chunks, parseMarkdownChunks rt sourceArtifactId text parserVersion = .ok chunks ∧
      (NoCollision rt sourceArtifactId parserVersion chunks →
        (Addressable text chunks ↔
          DistinctPaths (documentHeadings rt text) ∧
            ∀ i, CoveredLine (documentLines text) (rt.parse (normalizeLineEndings text))
              (documentHeadings rt text) i →
              (documentLines text)[i]? = (newlineLines text)[i]?)) := by
  refine ⟨_, parseMarkdownChunks_eq h sourceArtifactId text parserVersion, ?_⟩
  intro hdigest
  have hperm := List.perm_insertionSort ChunkLe
    (unsortedChunks rt sourceArtifactId text parserVersion)
  have hids := ids_nodup_iff (fun c hc => chunkId_eq c (hperm.mem_iff.mp hc)) hdigest
  have hcut : ∀ c ∈ unsortedChunks rt sourceArtifactId text parserVersion,
      Cut rt (documentLines text) c := by
    intro c hc
    rcases List.mem_append.mp hc with hc | hc
    · rcases List.mem_append.mp hc with hc | hc
      · exact cut_frontMatter c hc
      · exact cut_sections [] _ c hc
    · exact cut_blocks (rt.parse_covers _) c hc
  unfold Addressable
  rw [hids, (hperm.map SourceArtifactChunk.identity).nodup_iff]
  refine and_congr (identities_nodup_iff.trans (headingPaths_nodup_iff _)) ?_
  simp only [← covered_iff h sourceArtifactId text parserVersion]
  constructor
  · rintro hbodies i ⟨c, hc, hi⟩
    exact (chunkBody_eq_iff h sourceArtifactId text parserVersion hc (hcut c hc)).mp
      (hbodies c (hperm.mem_iff.mpr hc)) i hi
  · intro hlines c hc
    have hmem := hperm.mem_iff.mp hc
    exact (chunkBody_eq_iff h sourceArtifactId text parserVersion hmem (hcut c hmem)).mpr
      fun i hi => hlines i ⟨c, hmem, hi⟩

end Documents

/-- The tokens of a heading. -/
def headingTokens (line : Nat) (title : String) : List Token :=
  [{ type := "heading_open", tag := "h1", map := some (line, line + 1) },
    { type := "inline", map := some (line, line + 1), content := title },
    { type := "heading_close", tag := "h1" }]

/-- The digests of the texts below. -/
def digests : List (String × String) :=
  [(chunkIdentity "src_1" markdownChunksV1 ["A"] "section",
      "0a9f9fd519472d177ee546f696d8201b7bc3f860b86939a8d0e612a805ede1e5"),
    (chunkIdentity "src_1" markdownChunksV1 ["B"] "section",
      "c72afb9a18b28f74b0f8339ea5d0ae90dca9b135a8840ca905120840fa22a223"),
    (chunkIdentity "src_1" markdownChunksV1 ["A"] "paragraph:1",
      "2ec8d87953007f52dfce46a14c13caea6be2613081f01a0cc457e475dfa92a99"),
    ("# A", "327f031b25e00b1a7cd9b0c18f05948b60f55d09f9b3d177d21083f83a3cb6df"),
    ("# B", "216f4c6ac9ef17add951aa097934202649a6c6ea5f29263b00c59772ea6cff61"),
    ("b", "3e23e8160039594a33894f6564e1b1348bbd7a0088d42c4acb73eeaed59c009d"),
    ("# A\n\nb\n", "51c2e1731b70029d0cc3027d83651492a492a72f344331278569a6baad11bf9a")]

/-- The parser and the digests of one heading twice, and of two headings with a
paragraph between them. -/
def repeatedRuntime : DocumentRuntime where
  sha256 := fun bytes => ((digests.find? fun d => d.1.toUTF8.data = bytes.data).map Prod.snd).getD ""
  parse := fun text =>
    if text = "# A\n\nb\n\n# B" then headingTokens 0 "A" ++
      [{ type := "paragraph_open", tag := "p", map := some (2, 3) },
        { type := "inline", map := some (2, 3), content := "b" },
        { type := "paragraph_close", tag := "p" }] ++ headingTokens 4 "B"
    else if text = "# A\n# A" then headingTokens 0 "A" ++ headingTokens 1 "A"
    else []
  parse_covers := by
    intro text
    split_ifs <;> simp [headingTokens]

theorem repeatedRuntime_blocks : BlockParser repeatedRuntime where
  inside := by
    intro text
    unfold repeatedRuntime newlineLines
    dsimp only
    split_ifs with hone htwo
    · rw [hone]
      decide
    · rw [htwo]
      decide
    · simp
  levels := by
    intro text
    unfold repeatedRuntime
    dsimp only
    have hlevel : headingLevel "h1" = .ok 1 := rfl
    split_ifs <;> simp [headingTokens, hlevel]

theorem addressable_iff_heading :
    ∃ chunks, parseMarkdownChunks repeatedRuntime "src_1" "# A\n\nb\n\n# B" markdownChunksV1 =
      .ok chunks ∧ chunks.length = 3 ∧ Addressable "# A\n\nb\n\n# B" chunks := by
  obtain ⟨chunks, hparse, hiff⟩ := addressable_iff repeatedRuntime_blocks "src_1"
    "# A\n\nb\n\n# B" markdownChunksV1
  have hperm := List.perm_insertionSort ChunkLe
    (unsortedChunks repeatedRuntime "src_1" "# A\n\nb\n\n# B" markdownChunksV1)
  have hchunks := hparse
  rw [parseMarkdownChunks_eq repeatedRuntime_blocks] at hchunks
  rw [Except.ok.inj hchunks] at hperm
  have hdigest : NoCollision repeatedRuntime "src_1" markdownChunksV1
      (unsortedChunks repeatedRuntime "src_1" "# A\n\nb\n\n# B" markdownChunksV1) := by
    unfold NoCollision
    decide +kernel
  refine ⟨chunks, hparse, hperm.length_eq.trans (by decide +kernel), (hiff ?_).mpr ⟨?_, ?_⟩⟩
  · intro a ha b hb
    exact hdigest a (hperm.mem_iff.mp ha) b (hperm.mem_iff.mp hb)
  · have hlength : (documentHeadings repeatedRuntime "# A\n\nb\n\n# B").length = 2 := by
      decide +kernel
    intro i j hij hj
    obtain ⟨rfl, rfl⟩ : i = 0 ∧ j = 1 := by omega
    decide +kernel
  · have hlines : documentLines "# A\n\nb\n\n# B" = newlineLines "# A\n\nb\n\n# B" := by decide
    intro i _
    rw [hlines]

/-- Two equal headings get one id. -/
theorem repeated_heading_collides :
    BlockParser repeatedRuntime ∧
      ∃ chunks, parseMarkdownChunks repeatedRuntime "src_1" "# A\n# A" markdownChunksV1 =
          .ok chunks ∧
        NoCollision repeatedRuntime "src_1" markdownChunksV1 chunks ∧
          ¬ (chunks.map SourceArtifactChunk.chunkId).Nodup := by
  have hperm := List.perm_insertionSort ChunkLe
    (unsortedChunks repeatedRuntime "src_1" "# A\n# A" markdownChunksV1)
  have htwo : (unsortedChunks repeatedRuntime "src_1" "# A\n# A" markdownChunksV1).map
      SourceArtifactChunk.identity = [(["A"], "section"), (["A"], "section")] := by
    decide
  have hdigest : NoCollision repeatedRuntime "src_1" markdownChunksV1
      ((unsortedChunks repeatedRuntime "src_1" "# A\n# A" markdownChunksV1).insertionSort
        ChunkLe) := by
    have hsame : ∀ c ∈ (unsortedChunks repeatedRuntime "src_1" "# A\n# A"
        markdownChunksV1).insertionSort ChunkLe, c.identity = (["A"], "section") := by
      intro c hc
      have hmem := @List.mem_map_of_mem _ _ _ _ SourceArtifactChunk.identity (hperm.mem_iff.mp hc)
      rw [htwo] at hmem
      simpa using hmem
    intro a ha b hb _
    have hpath := (hsame a ha).trans (hsame b hb).symm
    rw [(Prod.mk.inj hpath).1, (Prod.mk.inj hpath).2]
  refine ⟨repeatedRuntime_blocks, _,
    parseMarkdownChunks_eq repeatedRuntime_blocks "src_1" "# A\n# A" markdownChunksV1, hdigest, ?_⟩
  intro hn
  have hids := (ids_nodup_iff (fun c hc => chunkId_eq c (hperm.mem_iff.mp hc)) hdigest).mp hn
  rw [(hperm.map SourceArtifactChunk.identity).nodup_iff, htwo] at hids
  simp at hids

end Cruxible.MarkdownChunks

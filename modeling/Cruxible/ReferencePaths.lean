import Cruxible.ReadMetadata
import Mathlib.Data.List.TakeWhile

/-!
# Reference paths

The grammar `name(.name | [digits])*` of reference paths, beside the tokens that
`_extract_path` finds in a path. Whatever is no token is skipped, so the tokens are
walked in texts that the grammar does not have.
-/
namespace Cruxible.ReferencePaths
open JsonValue PythonDict PropertyValidation ReadMetadata

/-- One access: a field of a mapping, or an element of a list. -/
inductive Access where
  | field (name : String)
  | element (i : Nat)
  deriving DecidableEq, Repr

/-- A character that a name may have. -/
def plain (c : Char) : Bool := !(c = '.' || c = '[' || c = ']')

/-- The characters of a name. -/
structure IsName (n : List Char) : Prop where
  nonempty : n ≠ []
  plain : ∀ c ∈ n, plain c = true

/-- `(.name | [digits])*`, and what it spells. -/
inductive Rest : List Char → List Access → Prop
  | done : Rest [] []
  | name {n cs : List Char} {as : List Access} (hn : IsName n) (h : Rest cs as) :
      Rest ('.' :: (n ++ cs)) (.field (String.ofList n) :: as)
  | index {ds cs : List Char} {as : List Access} (hne : ds ≠ []) (hd : ∀ c ∈ ds, isDigit c = true)
      (h : Rest cs as) : Rest ('[' :: (ds ++ ']' :: cs)) (.element (decimal ds) :: as)

/-- The whole path spells the accesses. -/
inductive Spells : List Char → List Access → Prop
  | mk {n cs : List Char} {as : List Access} (hn : IsName n) (h : Rest cs as) :
      Spells (n ++ cs) (.field (String.ofList n) :: as)

def InGrammar (path : List Char) : Prop := ∃ as, Spells path as

def select : Value → Access → Option Value
  | .object entries, .field k => Bindings.get? entries k
  | .array items, .element i => items[i]?
  | _, _ => none

/-- What the accesses select of a value, one after the other. -/
def walk (v : Value) (as : List Access) : Option Value := as.foldlM select v

def accessOf : Segment → Access
  | .key k => .field k
  | .index digits => .element (decimal digits)

/-- The accesses that `_extract_path` makes. -/
def accesses (path : List Char) : List Access := (segments path.length path).map accessOf

/-- An index with more digits than `int` reads. -/
def Overlong (path : List Char) : Prop :=
  ∃ digits, Segment.index digits ∈ segments path.length path ∧ maxStrDigits < digits.length

theorem takeWhile_append_stop {α : Type} {p : α → Bool} {xs ys : List α} (hx : ∀ a ∈ xs, p a = true)
    (hy : ∀ a, ys.head? = some a → p a = false) :
    (xs ++ ys).takeWhile p = xs ∧ (xs ++ ys).dropWhile p = ys := by
  induction xs with
  | nil =>
    cases ys with
    | nil => exact ⟨rfl, rfl⟩
    | cons y ys =>
      have hstop : p y = false := hy y rfl
      simp [hstop]
  | cons x xs ih =>
    have hhead : p x = true := hx x List.mem_cons_self
    have htail := ih fun a ha => hx a (List.mem_cons_of_mem x ha)
    simp [hhead, htail.1, htail.2]

variable {as : List Access} {cs path : List Char} {ref : String} {v : Value}

theorem not_plain_head (h : Rest cs as) (c : Char) (hc : cs.head? = some c) : plain c = false := by
  cases h with
  | done => cases hc
  | name hn h =>
    cases hc
    rfl
  | index hne hd h =>
    cases hc
    rfl

theorem not_isDigit_bracket : isDigit ']' = false := by decide

variable {n : List Char} {segs : List Segment} {root : Value}

theorem segments_name (hn : IsName n) (h : Rest cs as) (fuel : Nat) :
    segments (fuel + 1) (n ++ cs) =
      .key (String.ofList n) :: segments fuel cs := by
  cases n with
  | nil => exact absurd rfl hn.nonempty
  | cons c n =>
    have hc : plain c = true := hn.plain c List.mem_cons_self
    have hrest := takeWhile_append_stop
      (fun a ha => hn.plain a (List.mem_cons_of_mem c ha)) (not_plain_head h)
    unfold plain at hc hrest
    rw [Bool.not_eq_true', Bool.or_eq_false_iff, Bool.or_eq_false_iff, decide_eq_false_iff_not,
      decide_eq_false_iff_not, decide_eq_false_iff_not] at hc
    rw [List.cons_append, segments]
    simp only [hc.1.1, hc.1.2, hc.2, if_false, or_self, hrest.1, hrest.2]

theorem segments_index {ds : List Char} (hne : ds ≠ []) (hd : ∀ c ∈ ds, isDigit c = true)
    (fuel : Nat) : segments (fuel + 1) ('[' :: (ds ++ ']' :: cs)) =
      .index ds :: segments fuel cs := by
  have hdigits : (ds ++ ']' :: cs).takeWhile isDigit = ds := by
    apply (takeWhile_append_stop hd _).1
    intro c hc
    cases hc
    exact not_isDigit_bracket
  rw [segments, hdigits]
  simp [hne]

theorem segments_dot (fuel : Nat) (cs : List Char) :
    segments (fuel + 1) ('.' :: cs) = segments fuel cs := by
  rw [segments]
  simp

/-- The text of tokens behind one another. -/
def spelling : List Segment → List Char
  | [] => []
  | .key k :: segs => '.' :: (k.toList ++ spelling segs)
  | .index ds :: segs => '[' :: (ds ++ ']' :: spelling segs)

/-- The tokens start with a name, and are the whole path. -/
def wellFormed (path : List Char) : Bool :=
  match segments path.length path with
  | .key k :: segs => k.toList ++ spelling segs == path
  | _ => false

theorem segments_rest (h : Rest cs as) : ∀ fuel, cs.length ≤ fuel →
    (segments fuel cs).map accessOf = as ∧ spelling (segments fuel cs) = cs := by
  induction h with
  | done =>
    intro fuel _
    cases fuel <;> exact ⟨rfl, rfl⟩
  | @name n cs as hn h ih =>
    intro fuel hfuel
    have hlength : 0 < n.length := List.length_pos_iff.mpr hn.nonempty
    rw [List.length_cons, List.length_append] at hfuel
    obtain ⟨fuel, rfl⟩ : ∃ k, fuel = k + 2 := ⟨fuel - 2, by omega⟩
    have ⟨hwalk, hspell⟩ := ih fuel (by omega)
    rw [segments_dot, segments_name hn h, List.map_cons, hwalk, spelling, hspell,
      String.toList_ofList]
    exact ⟨rfl, rfl⟩
  | @index ds cs as hne hd h ih =>
    intro fuel hfuel
    rw [List.length_cons, List.length_append, List.length_cons] at hfuel
    obtain ⟨fuel, rfl⟩ : ∃ k, fuel = k + 1 := ⟨fuel - 1, by omega⟩
    have ⟨hwalk, hspell⟩ := ih fuel (by omega)
    rw [segments_index hne hd, List.map_cons, hwalk, spelling, hspell]
    exact ⟨rfl, rfl⟩

theorem accesses_of_spells (h : Spells path as) : accesses path = as ∧ wellFormed path = true := by
  cases h with
  | @mk n cs as hn h =>
    have hlength : 0 < n.length := List.length_pos_iff.mpr hn.nonempty
    obtain ⟨fuel, hfuel⟩ : ∃ k, (n ++ cs).length = k + 1 := by
      rw [List.length_append]
      exact ⟨n.length + cs.length - 1, by omega⟩
    have hcs : cs.length ≤ fuel := by
      rw [List.length_append] at hfuel
      omega
    have ⟨hwalk, hspell⟩ := segments_rest h fuel hcs
    unfold accesses wellFormed
    rw [hfuel, segments_name hn h, List.map_cons, hwalk]
    simp only [hspell, String.toList_ofList, beq_self_eq_true, accessOf, and_self]

/-- A token as the pattern finds it. -/
def Valid : Segment → Prop
  | .key k => IsName k.toList
  | .index ds => ds ≠ [] ∧ ∀ c ∈ ds, isDigit c = true

theorem segments_valid (fuel : Nat) (cs : List Char) : ∀ seg ∈ segments fuel cs, Valid seg := by
  induction fuel generalizing cs with
  | zero =>
    intro seg hseg
    cases hseg
  | succ fuel ih =>
    cases cs with
    | nil =>
      intro seg hseg
      cases hseg
    | cons c cs =>
      rw [segments]
      split_ifs with hopen hindex hskip
      · intro seg hseg
        rcases List.mem_cons.mp hseg with hseg | hseg
        · rw [hseg]
          exact ⟨hindex.1, fun d hd => List.mem_takeWhile_imp hd⟩
        · exact ih _ seg hseg
      · exact ih cs
      · exact ih cs
      · intro seg hseg
        rcases List.mem_cons.mp hseg with hseg | hseg
        · rw [hseg, Valid, String.toList_ofList]
          constructor
          · exact List.cons_ne_nil _ _
          · intro d hd
            rcases List.mem_cons.mp hd with hd | hd
            · rw [hd, plain]
              rw [not_or] at hskip
              simp [hopen, hskip]
            · exact List.mem_takeWhile_imp hd
        · exact ih _ seg hseg

theorem rest_spelling (h : ∀ seg ∈ segs, Valid seg) : Rest (spelling segs) (segs.map accessOf) := by
  induction segs with
  | nil => exact .done
  | cons seg segs ih =>
    have hrest := ih fun s hs => h s (List.mem_cons_of_mem seg hs)
    have hvalid := h seg List.mem_cons_self
    cases seg with
    | key k =>
      have hname := Rest.name hvalid hrest
      rw [String.ofList_toList] at hname
      exact hname
    | index ds => exact .index hvalid.1 hvalid.2 hrest

theorem wellFormed_iff (path : List Char) : wellFormed path = true ↔ InGrammar path := by
  constructor
  case mp =>
    intro h
    unfold wellFormed at h
    have hvalid := segments_valid path.length path
    cases hsegs : segments path.length path with
    | nil =>
      rw [hsegs] at h
      cases h
    | cons seg segs =>
      rw [hsegs] at h hvalid
      cases seg with
      | index ds => cases h
      | key k =>
        rw [← eq_of_beq h]
        exact ⟨_, .mk (hvalid (.key k) List.mem_cons_self)
          (rest_spelling fun s hs => hvalid s (List.mem_cons_of_mem _ hs))⟩
  case mpr => exact fun ⟨as, hspells⟩ => (accesses_of_spells hspells).2

instance (path : List Char) : Decidable (InGrammar path) :=
  decidable_of_iff (wellFormed path = true) (wellFormed_iff path)

theorem extractSegment_ok {path : String} {u : Value} {seg : Segment} :
    extractSegment path ref v seg = .ok u ↔
      select v (accessOf seg) = some u ∧ ∀ ds, seg = .index ds → ds.length ≤ maxStrDigits := by
  cases seg with
  | key k =>
    cases v with
    | object entries =>
      simp only [extractSegment, select, accessOf]
      cases Bindings.get? entries k <;> simp
    | _ => simp [extractSegment, select, accessOf]
  | index ds =>
    cases v with
    | array items =>
      simp only [extractSegment, select, accessOf]
      by_cases hlong : maxStrDigits < ds.length
      case pos => simp [hlong]
      case neg =>
        rw [if_neg hlong]
        cases items[decimal ds]? with
        | none => simp
        | some w => simpa using fun _ => Nat.le_of_not_lt hlong
    | _ => simp [extractSegment, select, accessOf]

theorem extractSegments_ok {path : String} :
    segs.foldlM (extractSegment path ref) root = .ok v ↔
      walk root (segs.map accessOf) = some v ∧
        ∀ ds, .index ds ∈ segs → ds.length ≤ maxStrDigits := by
  induction segs generalizing root with
  | nil => simp [walk, pure, Except.pure]
  | cons seg segs ih =>
    unfold walk at ih ⊢
    rw [List.foldlM_cons, Fallible.bind_eq_ok, List.map_cons, List.foldlM_cons,
      Option.bind_eq_bind, Option.bind_eq_some_iff]
    constructor
    case mp =>
      rintro ⟨u, hu, hrest⟩
      have ⟨hselect, hshort⟩ := extractSegment_ok.mp hu
      have ⟨hwalk, hshorts⟩ := ih.mp hrest
      refine ⟨⟨u, hselect, hwalk⟩, ?_⟩
      intro ds hds
      rcases List.mem_cons.mp hds with hds | hds
      · exact hshort ds hds.symm
      · exact hshorts ds hds
    case mpr =>
      rintro ⟨⟨u, hselect, hwalk⟩, hshorts⟩
      refine ⟨u, extractSegment_ok.mpr ⟨hselect, ?_⟩, ih.mpr ⟨hwalk, ?_⟩⟩
      · intro ds hds
        exact hshorts ds (hds ▸ List.mem_cons_self)
      · intro ds hds
        exact hshorts ds (List.mem_cons_of_mem seg hds)

theorem extractPath_ok :
    extractPath root path ref = .ok v ↔ walk root (accesses path) = some v ∧ ¬Overlong path := by
  unfold extractPath accesses Overlong
  rw [extractSegments_ok]
  simp only [not_exists, not_and, Nat.not_lt]

/-- A value in which the accesses select something. -/
def rootOf : List Access → Value
  | [] => .null
  | .field k :: as => .object [(k, rootOf as)]
  | .element i :: as => .array (List.replicate i .null ++ [rootOf as])

theorem walk_rootOf (as : List Access) : walk (rootOf as) as = some .null := by
  induction as with
  | nil => rfl
  | cons a as ih =>
    unfold walk at ih ⊢
    cases a with
    | field k => simp [rootOf, select, Bindings.get?, ih]
    | element i => simp [rootOf, select, ih]

/-- Whatever the path is walked in, it is walked as the whole of it is spelled, unless it
raises. -/
def Exact (path : List Char) : Prop :=
  ∀ root ref, (∃ as v, Spells path as ∧ walk root as = some v ∧
    extractPath root path ref = .ok v) ∨ ∃ e, extractPath root path ref = .error e

theorem exact_iff (path : List Char) : Exact path ↔ InGrammar path ∨ Overlong path := by
  constructor
  case mp =>
    intro hexact
    rcases hexact (rootOf (accesses path)) "" with ⟨as, v, hspells, -⟩ | ⟨e, he⟩
    · exact .inl ⟨as, hspells⟩
    · right
      by_contra hshort
      rw [extractPath_ok.mpr ⟨walk_rootOf (accesses path), hshort⟩] at he
      cases he
  case mpr =>
    intro hpath root ref
    cases hextract : extractPath root path ref with
    | error e => exact .inr ⟨e, rfl⟩
    | ok v =>
      have ⟨hwalk, hshort⟩ := extractPath_ok.mp hextract
      have ⟨as, hspells⟩ := hpath.resolve_right hshort
      rw [(accesses_of_spells hspells).1] at hwalk
      exact .inl ⟨as, v, hspells, hwalk, rfl⟩

/-- The path with every index in its shortest digits. -/
def respellFrom : Nat → List Char → List Char
  | 0, cs => cs
  | _ + 1, [] => []
  | fuel + 1, c :: cs =>
      let digits := cs.takeWhile isDigit
      if c = '[' ∧ digits ≠ [] ∧ (cs.drop digits.length).head? = some ']' then
        '[' :: (Nat.toDigits 10 (decimal digits) ++ ']' ::
          respellFrom fuel (cs.drop (digits.length + 1)))
      else c :: respellFrom fuel cs

def respelled (path : List Char) : List Char := respellFrom path.length path

/-- The shortest text of accesses behind one another. -/
def shortest : List Access → List Char
  | [] => []
  | .field k :: as => '.' :: (k.toList ++ shortest as)
  | .element i :: as => '[' :: (Nat.toDigits 10 i ++ ']' :: shortest as)

theorem decimal_append (ds : List Char) (d : Char) :
    decimal (ds ++ [d]) = 10 * decimal ds + (digitValue? d).getD 0 := by
  simp [decimal]

theorem digitValue_digitChar : ∀ n < 10, digitValue? (Nat.digitChar n) = some n := by decide

theorem decimal_toDigits (n : Nat) : decimal (Nat.toDigits 10 n) = n := by
  induction n using Nat.strong_induction_on with
  | _ n ih =>
    by_cases hlt : n < 10
    case pos =>
      rw [Nat.toDigits_of_lt_base hlt]
      simp [decimal, digitValue_digitChar n hlt]
    case neg =>
      rw [Nat.toDigits_of_base_le (by omega) (by omega), decimal_append, ih (n / 10) (by omega),
        digitValue_digitChar (n % 10) (by omega), Option.getD_some]
      omega

theorem isDigit_toDigits (n : Nat) : ∀ c ∈ Nat.toDigits 10 n, isDigit c = true := by
  induction n using Nat.strong_induction_on with
  | _ n ih =>
    intro c hc
    by_cases hlt : n < 10
    case pos =>
      rw [Nat.toDigits_of_lt_base hlt, List.mem_singleton] at hc
      rw [hc, isDigit, digitValue_digitChar n hlt]
      rfl
    case neg =>
      rw [Nat.toDigits_of_base_le (by omega) (by omega), List.mem_append, List.mem_singleton] at hc
      rcases hc with hc | hc
      · exact ih (n / 10) (by omega) c hc
      · rw [hc, isDigit, digitValue_digitChar (n % 10) (by omega)]
        rfl

theorem toDigits_ne_nil (n : Nat) : Nat.toDigits 10 n ≠ [] := by
  by_cases hlt : n < 10
  case pos =>
    rw [Nat.toDigits_of_lt_base hlt]
    exact List.cons_ne_nil _ _
  case neg =>
    rw [Nat.toDigits_of_base_le (by omega) (by omega)]
    simp

theorem rest_shortest (h : Rest cs as) : Rest (shortest as) as := by
  induction h with
  | done => exact .done
  | @name n cs as hn h ih =>
    rw [shortest, String.toList_ofList]
    exact .name hn ih
  | @index ds cs as hne hd h ih =>
    have hindex := Rest.index (toDigits_ne_nil (decimal ds)) (isDigit_toDigits (decimal ds)) ih
    rw [decimal_toDigits] at hindex
    exact hindex

theorem respellFrom_name (hn : ∀ c ∈ n, plain c = true) (fuel : Nat) (cs : List Char) :
    respellFrom (n.length + fuel) (n ++ cs) = n ++ respellFrom fuel cs := by
  induction n with
  | nil => rw [List.length_nil, Nat.zero_add, List.nil_append, List.nil_append]
  | cons c n ih =>
    have hopen : c ≠ '[' := by
      rintro rfl
      exact absurd (hn '[' List.mem_cons_self) (by decide)
    have hlength : (c :: n).length + fuel = (n.length + fuel) + 1 := by
      rw [List.length_cons]
      omega
    rw [hlength, List.cons_append, respellFrom]
    simp only [hopen, false_and, if_false]
    rw [ih fun d hd => hn d (List.mem_cons_of_mem c hd), List.cons_append]

theorem respell_rest (h : Rest cs as) :
    ∀ fuel, cs.length ≤ fuel → respellFrom fuel cs = shortest as := by
  induction h with
  | done =>
    intro fuel _
    cases fuel <;> rfl
  | @name n cs as hn h ih =>
    intro fuel hfuel
    rw [List.length_cons, List.length_append] at hfuel
    obtain ⟨fuel, rfl⟩ : ∃ k, fuel = (n.length + k) + 1 := ⟨fuel - 1 - n.length, by omega⟩
    rw [respellFrom]
    simp only [show ('.' : Char) ≠ '[' by decide, false_and, if_false]
    rw [respellFrom_name hn.plain, ih fuel (by omega), shortest, String.toList_ofList]
  | @index ds cs as hne hd h ih =>
    intro fuel hfuel
    have hdigits : (ds ++ ']' :: cs).takeWhile isDigit = ds := by
      apply (takeWhile_append_stop hd _).1
      intro c hc
      cases hc
      exact not_isDigit_bracket
    rw [List.length_cons, List.length_append, List.length_cons] at hfuel
    obtain ⟨fuel, rfl⟩ : ∃ k, fuel = k + 1 := ⟨fuel - 1, by omega⟩
    rw [respellFrom, hdigits]
    simp [hne, ih fuel (by omega), shortest]

theorem respelled_of_spells (h : Spells path as) :
    '.' :: respelled path = shortest as ∧ Spells (respelled path) as := by
  cases h with
  | @mk n cs as hn h =>
    have hrespelled : respelled (n ++ cs) = n ++ shortest as := by
      rw [respelled, List.length_append, respellFrom_name hn.plain, respell_rest h _ le_rfl]
    rw [hrespelled, shortest, String.toList_ofList]
    exact ⟨rfl, .mk hn (rest_shortest h)⟩

theorem respelled_eq_iff {p q : List Char} (hp : InGrammar p) (hq : InGrammar q) :
    respelled p = respelled q ↔ accesses p = accesses q := by
  obtain ⟨as, hp⟩ := hp
  obtain ⟨bs, hq⟩ := hq
  have ⟨hshortest, has⟩ := respelled_of_spells hp
  have ⟨hshortest', hbs⟩ := respelled_of_spells hq
  rw [(accesses_of_spells hp).1, (accesses_of_spells hq).1]
  constructor
  case mp =>
    intro h
    rw [← (accesses_of_spells has).1, ← (accesses_of_spells hbs).1, h]
  case mpr =>
    rintro rfl
    exact List.cons_inj_right '.' |>.mp (hshortest.trans hshortest'.symm)

/-- The path selects a value of something. -/
def Selects (path : List Char) : Prop := ∃ root ref v, extractPath root path ref = .ok v

/-- Different paths that select values denote different accesses. -/
def Separate (p q : List Char) : Prop :=
  p ≠ q → Selects p → Selects q → accesses p ≠ accesses q

theorem selects_iff (path : List Char) : Selects path ↔ ¬Overlong path := by
  constructor
  case mp =>
    rintro ⟨root, ref, v, hv⟩
    exact (extractPath_ok.mp hv).2
  case mpr =>
    intro hshort
    exact ⟨rootOf (accesses path), "", .null,
      extractPath_ok.mpr ⟨walk_rootOf (accesses path), hshort⟩⟩

/-- Two paths are walked exactly and told apart when the grammar has them both and they
differ in more than the digits of their indexes; an overlong index raises. -/
theorem paths_exact_iff (p q : List Char) :
    Exact p ∧ Exact q ∧ Separate p q ↔
      (InGrammar p ∨ Overlong p) ∧ (InGrammar q ∨ Overlong q) ∧
        (p = q ∨ respelled p ≠ respelled q ∨ Overlong p ∨ Overlong q) := by
  rw [exact_iff, exact_iff]
  refine and_congr_right fun hp => and_congr_right fun hq => ?_
  unfold Separate
  rw [selects_iff, selects_iff]
  by_cases hlong : Overlong p ∨ Overlong q
  case pos =>
    constructor
    · intro _
      exact .inr (.inr hlong)
    · intro _ _ hshort hshort'
      exact absurd hlong (not_or.mpr ⟨hshort, hshort'⟩)
  case neg =>
    have ⟨hshort, hshort'⟩ := not_or.mp hlong
    have hsame := respelled_eq_iff (hp.resolve_right hshort) (hq.resolve_right hshort')
    simp only [ne_eq, hsame, hshort, hshort', not_false_eq_true, or_false]
    tauto

/-- Two dots in a row are skipped as one is. -/
theorem doubled_dot_is_skipped : ¬Exact ['a', '.', '.', 'b'] := by
  rw [exact_iff]
  rintro (h | ⟨ds, hds, -⟩)
  · exact absurd h (by decide)
  · exact absurd hds (by
      have htokens : segments 4 ['a', '.', '.', 'b'] = [.key "a", .key "b"] := by decide
      rw [List.length_cons, List.length_cons, List.length_cons, List.length_singleton, htokens]
      simp)

end Cruxible.ReferencePaths

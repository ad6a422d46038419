import Mathlib.Data.List.Basic
import Mathlib.Data.List.Nodup
import Mathlib.Tactic.Common

/-!
# Schemas of documents, with their round trip

A schema validates a document, dumps the instance and validates the dump again.
Reading a dump is not always the identity. Every schema below carries the exact
condition, `survives`, under which its instances come back.
-/

namespace Cruxible.ModelSchemas

/-- A document over scalars `α`. An object is read as a mapping. -/
inductive Node (α : Type) where
  | null
  | atom (a : α)
  | list (items : List (Node α))
  | obj (entries : List (String × Node α))

variable {α β γ : Type}

abbrev Fields (α : Type) := List (String × Node α)

def Node.isNull : Node α → Bool
  | .null => true
  | _ => false

@[simp] theorem Node.isNull_null : (Node.null : Node α).isNull = true := rfl

theorem Node.isNull_iff {v : Node α} : v.isNull = true ↔ v = .null := by
  cases v <;> simp [Node.isNull]

def Node.items? : Node α → Option (List (Node α))
  | .list items => some items
  | _ => none

def Node.entries? : Node α → Option (Fields α)
  | .obj entries => some entries
  | _ => none

/-- What is validated, dumped and validated again. `bare` is the part of an
instance that a dump shows; `survives` says which instances come back. -/
structure Codec (β : Type) where
  validate : β → Option β
  dump : β → β
  bare : β → β
  survives : β → Bool
  keeps : ∀ {raw x}, validate raw = some x → survives x = true → validate (dump x) = some (bare x)
  returns : ∀ {raw x y}, validate raw = some x → validate (dump x) = some y → bare y = bare x →
    survives x = true
  bare_bare : ∀ {raw x}, validate raw = some x → bare (bare x) = bare x

/-- An instance comes back as itself. -/
theorem Codec.same_iff (c : Codec β) {raw x : β} (h : c.validate raw = some x) :
    c.validate (c.dump x) = some x ↔ c.survives x = true ∧ c.bare x = x := by
  constructor
  · intro hback
    have hs := c.returns h hback rfl
    exact ⟨hs, Option.some.inj ((c.keeps h hs).symm.trans hback)⟩
  · rintro ⟨hs, hb⟩
    rw [c.keeps h hs, hb]

theorem mapM_cons_eq_some {γ : Type} {f : α → Option γ} {x : α} {xs : List α} {ys : List γ} :
    (x :: xs).mapM f = some ys ↔ ∃ z, f x = some z ∧ ∃ zs, xs.mapM f = some zs ∧ z :: zs = ys := by
  simp [List.mapM_cons, Option.bind_eq_some_iff]

/-- A codec on the elements of a list, in order. -/
def Codec.listOf (c : Codec β) : Codec (List β) where
  validate xs := xs.mapM c.validate
  dump := List.map c.dump
  bare := List.map c.bare
  survives xs := xs.all c.survives
  keeps := by
    intro raw x h hs
    induction raw generalizing x with
    | nil => simp_all
    | cons r rs ih =>
      obtain ⟨y, hy, ys, hys, rfl⟩ := mapM_cons_eq_some.mp h
      simp only [List.all_cons, Bool.and_eq_true] at hs
      simp [c.keeps hy hs.1, ih hys hs.2]
  returns := by
    intro raw x y h hy hb
    induction raw generalizing x y with
    | nil => simp_all
    | cons r rs ih =>
      obtain ⟨z, hz, zs, hzs, rfl⟩ := mapM_cons_eq_some.mp h
      rw [List.map_cons] at hy
      obtain ⟨w, hw, ws, hws, rfl⟩ := mapM_cons_eq_some.mp hy
      simp only [List.map_cons, List.cons.injEq] at hb
      simp [c.returns hz hw hb.1, ih hzs hws hb.2]
  bare_bare := by
    intro raw x h
    induction raw generalizing x with
    | nil => simp_all
    | cons r rs ih =>
      obtain ⟨y, hy, ys, hys, rfl⟩ := mapM_cons_eq_some.mp h
      have htail := ih hys
      simp only [List.map_map] at htail
      simp [c.bare_bare hy, htail]

/-- A codec on the value of a binding. -/
def Codec.entry (c : Codec β) : Codec (String × β) where
  validate e := (c.validate e.2).map (e.1, ·)
  dump e := (e.1, c.dump e.2)
  bare e := (e.1, c.bare e.2)
  survives e := c.survives e.2
  keeps := by
    intro raw x h hs
    have ⟨v, hv, hx⟩ := Option.map_eq_some_iff.mp h
    subst hx
    simp [c.keeps hv hs]
  returns := by
    intro raw x y h hy hb
    have ⟨v, hv, hx⟩ := Option.map_eq_some_iff.mp h
    subst hx
    have ⟨w, hw, hy'⟩ := Option.map_eq_some_iff.mp hy
    subst hy'
    exact c.returns hv hw (Prod.mk.inj hb).2
  bare_bare := by
    intro raw x h
    have ⟨v, hv, hx⟩ := Option.map_eq_some_iff.mp h
    subst hx
    simp [c.bare_bare hv]

/-- A codec carried along a constructor; other values are refused. -/
def Codec.along (mk : β → γ) (get? : γ → Option β) (get_mk : ∀ b, get? (mk b) = some b)
    (c : Codec β) : Codec γ where
  validate g := (get? g).bind fun b => (c.validate b).map mk
  dump g := (get? g).elim g fun b => mk (c.dump b)
  bare g := (get? g).elim g fun b => mk (c.bare b)
  survives g := (get? g).elim false c.survives
  keeps := by
    intro raw x h hs
    have ⟨b, _, hb⟩ := Option.bind_eq_some_iff.mp h
    have ⟨v, hv, hx⟩ := Option.map_eq_some_iff.mp hb
    subst hx
    simp only [get_mk, Option.elim_some] at hs
    simp [get_mk, c.keeps hv hs]
  returns := by
    intro raw x y h hy hbare
    have ⟨b, _, hb⟩ := Option.bind_eq_some_iff.mp h
    have ⟨v, hv, hx⟩ := Option.map_eq_some_iff.mp hb
    subst hx
    simp only [get_mk, Option.elim_some, Option.bind_some] at hy
    have ⟨w, hw, hy'⟩ := Option.map_eq_some_iff.mp hy
    subst hy'
    simp only [get_mk, Option.elim_some] at hbare
    have hinj : c.bare w = c.bare v := Option.some.inj (by rw [← get_mk, ← get_mk, hbare])
    simpa [get_mk] using c.returns hv hw hinj
  bare_bare := by
    intro raw x h
    have ⟨b, _, hb⟩ := Option.bind_eq_some_iff.mp h
    have ⟨v, hv, hx⟩ := Option.map_eq_some_iff.mp hb
    subst hx
    simp [get_mk, c.bare_bare hv]

/-- A coercion to a scalar type: a value that was read once is read as itself. -/
structure Reader (α : Type) where
  read : Node α → Option (Node α)
  stable : ∀ {raw x}, read raw = some x → read x = some x

/-- A scalar type with a constraint. -/
def Reader.restrict (r : Reader α) (test : Node α → Bool) : Reader α where
  read raw := (r.read raw).filter test
  stable := by
    intro raw x h
    have ⟨hx, ht⟩ := Option.filter_eq_some_iff.mp h
    simp [r.stable hx, ht]

/-- A codec on documents in which only a null is shown as a null. -/
structure Schema (α : Type) extends Codec (Node α) where
  bare_isNull : ∀ {raw x}, validate raw = some x → (bare x).isNull = x.isNull
  dump_isNull : ∀ {raw x}, validate raw = some x → survives x = true → (dump x).isNull = x.isNull

/-- What comes through a constructor of documents that are not null is not null. -/
theorem Codec.along_isNull {mk : β → Node α} {get? : Node α → Option β}
    {get_mk : ∀ b, get? (mk b) = some b} {c : Codec β} (hnull : ∀ b, (mk b).isNull = false)
    {raw x : Node α} (h : (c.along mk get? get_mk).validate raw = some x) :
    ((c.along mk get? get_mk).bare x).isNull = x.isNull ∧
      ((c.along mk get? get_mk).dump x).isNull = x.isNull := by
  obtain ⟨b, _, hb⟩ := Option.bind_eq_some_iff.mp h
  obtain ⟨v, _, rfl⟩ := Option.map_eq_some_iff.mp hb
  simp [along, get_mk, hnull]

theorem Node.entries?_obj (es : Fields α) : (Node.obj es).entries? = some es := rfl

namespace Schema

/-- Values of the schema. -/
def Valid (s : Schema α) (x : Node α) : Prop := ∃ raw, s.validate raw = some x

/-- The schema of a scalar type. -/
def leaf (r : Reader α) : Schema α where
  validate := r.read
  dump := id
  bare := id
  survives _ := true
  keeps h _ := r.stable h
  returns _ _ _ := rfl
  bare_bare _ := rfl
  bare_isNull _ := rfl
  dump_isNull _ _ := rfl

/-- Any document. `render` is the form that the dump gives it. -/
def any (render : Node α → Node α) (plain : Node α → Bool)
    (plain_iff : ∀ v, plain v = true ↔ render v = v) : Schema α where
  validate := some
  dump := render
  bare := id
  survives := plain
  keeps := by
    intro raw x _ hs
    rw [(plain_iff x).mp hs]
    rfl
  returns := by
    intro raw x y _ hy hb
    have hrender : render x = y := Option.some.inj hy
    exact (plain_iff x).mpr (hrender.trans hb)
  bare_bare _ := rfl
  bare_isNull _ := rfl
  dump_isNull := by
    intro raw x _ hs
    rw [(plain_iff x).mp hs]

/-- A list of values of one schema. -/
def list (item : Schema α) : Schema α where
  toCodec := (Codec.listOf item.toCodec).along .list Node.items? fun _ => rfl
  bare_isNull h := (Codec.along_isNull (fun _ => rfl) h).1
  dump_isNull h _ := (Codec.along_isNull (fun _ => rfl) h).2

/-- A mapping from text to values of one schema; nulls in it are kept. -/
def dict (value : Schema α) : Schema α where
  toCodec := (Codec.listOf value.toCodec.entry).along .obj Node.entries? Node.entries?_obj
  bare_isNull h := (Codec.along_isNull (fun _ => rfl) h).1
  dump_isNull h _ := (Codec.along_isNull (fun _ => rfl) h).2

/-- A schema whose values also pass a test on what a dump shows. -/
def guarded (s : Schema α) (accepts : Node α → Bool) : Schema α where
  validate raw := (s.validate raw).filter fun x => accepts (s.bare x)
  dump := s.dump
  bare := s.bare
  survives := s.survives
  keeps := by
    intro raw x h hs
    have ⟨hx, ha⟩ := Option.filter_eq_some_iff.mp h
    have hb := s.keeps hx hs
    simp only [hb, Option.filter_some, s.bare_bare hx, ha, if_true]
  returns := by
    intro raw x y h hy hb
    have ⟨hx, _⟩ := Option.filter_eq_some_iff.mp h
    have ⟨hy', _⟩ := Option.filter_eq_some_iff.mp hy
    exact s.returns hx hy' hb
  bare_bare h := s.bare_bare (Option.filter_eq_some_iff.mp h).1
  bare_isNull h := s.bare_isNull (Option.filter_eq_some_iff.mp h).1
  dump_isNull h := s.dump_isNull (Option.filter_eq_some_iff.mp h).1

/-- A non-null value of an optional schema is a value of the schema itself. -/
theorem validate_of_not_null (s : Schema α) {raw x : Node α}
    (h : (if raw.isNull then some .null else s.validate raw) = some x) (hx : x.isNull = false) :
    s.validate raw = some x := by
  by_cases hraw : raw.isNull = true
  · simp only [hraw, if_true, Option.some.injEq] at h
    subst h
    exact Bool.noConfusion hx
  · simpa [hraw] using h

/-- `T | None`. -/
def orNull (s : Schema α) : Schema α where
  validate raw := if raw.isNull then some .null else s.validate raw
  dump x := if x.isNull then .null else s.dump x
  bare x := if x.isNull then .null else s.bare x
  survives x := x.isNull || s.survives x
  keeps := by
    intro raw x h hs
    cases hx : x.isNull with
    | true => simp
    | false =>
      have hv := s.validate_of_not_null h hx
      have hs' : s.survives x = true := by simpa [hx] using hs
      have hd : (s.dump x).isNull = false := by rw [s.dump_isNull hv hs', hx]
      simp [hd, s.keeps hv hs']
  returns := by
    intro raw x y h hy hb
    cases hx : x.isNull with
    | true => simp
    | false =>
      have hv := s.validate_of_not_null h hx
      have hbx : (s.bare x).isNull = false := by rw [s.bare_isNull hv, hx]
      simp only [hx, Bool.false_eq_true, if_false] at hy hb
      have hy0 : y.isNull = false := by
        by_contra hne
        simp only [Bool.not_eq_false] at hne
        simp only [hne, if_true] at hb
        rw [← hb] at hbx
        exact Bool.noConfusion hbx
      have hback := s.validate_of_not_null hy hy0
      simp only [hy0, Bool.false_eq_true, if_false] at hb
      simp [s.returns hv hback hb]
  bare_bare := by
    intro raw x h
    cases hx : x.isNull with
    | true => simp
    | false =>
      have hv := s.validate_of_not_null h hx
      simp [s.bare_isNull hv, hx, s.bare_bare hv]
  bare_isNull := by
    intro raw x h
    cases hx : x.isNull with
    | true => simp
    | false =>
      have hv := s.validate_of_not_null h hx
      simp [s.bare_isNull hv, hx]
  dump_isNull := by
    intro raw x h hs
    cases hx : x.isNull with
    | true => simp
    | false =>
      have hv := s.validate_of_not_null h hx
      have hs' : s.survives x = true := by simpa [hx] using hs
      simp [s.dump_isNull hv hs', hx]

/-- A union: the alternative is chosen by the shape of the document, and an
instance and its dump show the same shape. -/
def choose (select : Node α → Option (Schema α))
    (steady : ∀ {raw s x}, select raw = some s → s.validate raw = some x →
      select x = some s ∧ select (s.dump x) = some s ∧ select (s.bare x) = some s) : Schema α where
  validate raw := (select raw).bind fun s => s.validate raw
  dump x := (select x).elim x fun s => s.dump x
  bare x := (select x).elim x fun s => s.bare x
  survives x := (select x).elim false fun s => s.survives x
  keeps := by
    intro raw x h hs
    have ⟨s, hsel, hv⟩ := Option.bind_eq_some_iff.mp h
    have ⟨hx, hd, _⟩ := steady hsel hv
    simp only [hx, Option.elim_some] at hs
    simp [hx, hd, s.keeps hv hs]
  returns := by
    intro raw x y h hy hb
    have ⟨s, hsel, hv⟩ := Option.bind_eq_some_iff.mp h
    have ⟨hx, hd, _⟩ := steady hsel hv
    simp only [hx, Option.elim_some, hd, Option.bind_some] at hy
    have ⟨hy', _, _⟩ := steady hd hy
    simp only [hx, hy', Option.elim_some] at hb
    simpa [hx] using s.returns hv hy hb
  bare_bare := by
    intro raw x h
    have ⟨s, hsel, hv⟩ := Option.bind_eq_some_iff.mp h
    have ⟨hx, _, hbare⟩ := steady hsel hv
    simp [hx, hbare, s.bare_bare hv]
  bare_isNull := by
    intro raw x h
    have ⟨s, hsel, hv⟩ := Option.bind_eq_some_iff.mp h
    have ⟨hx, _, _⟩ := steady hsel hv
    simp [hx, s.bare_isNull hv]
  dump_isNull := by
    intro raw x h hs
    have ⟨s, hsel, hv⟩ := Option.bind_eq_some_iff.mp h
    have ⟨hx, _, _⟩ := steady hsel hv
    simp only [hx, Option.elim_some] at hs
    simp [hx, s.dump_isNull hv hs]

end Schema

namespace Schema

/-- Every instance of the schema, its dump and its dumped part pass a test. -/
def Shaped (s : Schema α) (test : Node α → Bool) : Prop :=
  ∀ raw x, s.validate raw = some x →
    test x = true ∧ test (s.dump x) = true ∧ test (s.bare x) = true

theorem shaped_mono {s : Schema α} {p q : Node α → Bool} (h : s.Shaped p)
    (hpq : ∀ v, p v = true → q v = true) : s.Shaped q := by
  intro raw x hx
  have ⟨h1, h2, h3⟩ := h raw x hx
  exact ⟨hpq _ h1, hpq _ h2, hpq _ h3⟩

theorem list_shaped (item : Schema α) : (list item).Shaped fun v => v.items?.isSome := by
  intro raw x h
  have ⟨b, _, hb⟩ := Option.bind_eq_some_iff.mp h
  have ⟨v, _, hx⟩ := Option.map_eq_some_iff.mp hb
  subst hx
  exact ⟨rfl, rfl, rfl⟩

theorem dict_shaped (value : Schema α) : (dict value).Shaped fun v => v.entries?.isSome := by
  intro raw x h
  have ⟨b, _, hb⟩ := Option.bind_eq_some_iff.mp h
  have ⟨v, _, hx⟩ := Option.map_eq_some_iff.mp hb
  subst hx
  exact ⟨rfl, rfl, rfl⟩

end Schema

end Cruxible.ModelSchemas

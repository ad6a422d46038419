import Cruxible.ModelSchemas

/-!
# Classes of named fields that are dumped without their nulls

A class validates an object field by field and dumps an instance with its null
fields left out. A required field may hold a null, a default may differ from the
null that it replaces, and a check may look at which fields were written; the
condition `survives` of a class says exactly when none of this loses the instance.
-/

namespace Cruxible.ModelClasses

open ModelSchemas

variable {α : Type}

/-- A field of a class. `accepted` lists the input keys in the order in which they
are tried, `name` is the key of the dump. An excluded field is in no dump; a value
that is `hidden` is left out because it is the default. -/
structure Field (α : Type) where
  name : String
  accepted : List String
  schema : Schema α
  default : Option (Fields α → Node α)
  excluded : Bool
  hidden : Node α → Bool
  default_valid : ∀ d, default = some d → ∀ given,
    (d given).isNull = true ∨ schema.Valid (d given)
  excluded_default : excluded = true → default = some fun _ => .null
  hidden_default : ∀ v, hidden v = true → (default = some fun _ => v) ∧ schema.bare v = v

namespace Field

/-- The accepted key under which the input gives the field. -/
def matched (f : Field α) (entries : Fields α) : Option String :=
  f.accepted.find? fun k => (entries.lookup k).isSome

/-- The field as the input gives it: `some none` where it is absent. -/
def read (f : Field α) (entries : Fields α) : Option (Option (Node α)) :=
  match (f.matched entries).bind fun k => entries.lookup k with
  | none => some none
  | some raw => (f.schema.validate raw).map some

/-- The value of the field beside what the input gave. -/
def filled (f : Field α) (given : Fields α) : Option (Node α) :=
  match given.lookup f.name with
  | some v => some v
  | none => f.default.map fun d => d given

def shown (f : Field α) (v : Node α) : Bool := !(f.excluded || v.isNull || f.hidden v)

def dumpOf (f : Field α) (v : Node α) : Option (Node α) :=
  if f.shown v then some (f.schema.dump v) else none

def bare (f : Field α) (v : Node α) : Node α :=
  if f.excluded || v.isNull then .null else f.schema.bare v

/-- A shown value comes back by its schema, a null only where the default that
replaces it is null. -/
def survives (f : Field α) (given : Fields α) (v : Node α) : Bool :=
  if f.shown v then f.schema.survives v
  else f.excluded || f.hidden v || f.default.elim false fun d => (d given).isNull

/-- Values that a validated instance can have in the field. -/
def Holds (f : Field α) (v : Node α) : Prop := v.isNull = true ∨ f.schema.Valid v

variable {f : Field α} {v : Node α}

theorem shown_eq (he : f.excluded = false) (hh : ∀ v, f.hidden v = false) (v : Node α) :
    f.shown v = !v.isNull := by
  simp [shown, he, hh]

theorem bare_of_shown (h : f.shown v = true) : f.bare v = f.schema.bare v := by
  simp only [shown, Bool.not_eq_true', Bool.or_eq_false_iff] at h
  simp [bare, h.1.1, h.1.2]

theorem valid_of_shown (hv : f.Holds v) (h : f.shown v = true) : f.schema.Valid v := by
  cases hv with
  | inr hv => exact hv
  | inl hv => simp [shown, hv] at h

theorem bare_isNull (hv : f.Holds v) (he : f.excluded = false) : (f.bare v).isNull = v.isNull := by
  cases hn : v.isNull with
  | true => simp [bare, hn]
  | false =>
    cases hv with
    | inl hv => simp [hv] at hn
    | inr hv =>
      have ⟨raw, hraw⟩ := hv
      simp [bare, he, hn, f.schema.bare_isNull hraw]

theorem bare_bare (hv : f.Holds v) : f.bare (f.bare v) = f.bare v := by
  cases he : f.excluded with
  | true => simp [bare, he]
  | false =>
    cases hn : v.isNull with
    | true => simp [bare, he, hn]
    | false =>
      cases hv with
      | inl hv => simp [hv] at hn
      | inr hv =>
        have ⟨raw, hraw⟩ := hv
        simp [bare, he, hn, f.schema.bare_isNull hraw, f.schema.bare_bare hraw]

end Field

namespace Field

/-- A field without a default. -/
def required (name : String) (schema : Schema α) : Field α where
  name := name
  accepted := [name]
  schema := schema
  default := none
  excluded := false
  hidden _ := false
  default_valid := by nofun
  excluded_default := by nofun
  hidden_default := by nofun

/-- A field whose default is a function of what was given. -/
def derived (name : String) (schema : Schema α) (d : Fields α → Node α)
    (valid : ∀ given, (d given).isNull = true ∨ schema.Valid (d given)) : Field α where
  name := name
  accepted := [name]
  schema := schema
  default := some d
  excluded := false
  hidden _ := false
  default_valid := by
    intro d' hd given
    cases hd
    exact valid given
  excluded_default := by nofun
  hidden_default := by nofun

/-- A field whose default is null. -/
def optional (name : String) (schema : Schema α) : Field α :=
  derived name schema (fun _ => .null) fun _ => .inl rfl

/-- A field with a default of its own. -/
def defaulted (name : String) (schema : Schema α) (v : Node α) (valid : schema.Valid v) : Field α :=
  derived name schema (fun _ => v) fun _ => .inr valid

/-- An input that appears in no dump. -/
def inputOnly (name : String) (schema : Schema α) : Field α where
  name := name
  accepted := [name]
  schema := schema
  default := some fun _ => .null
  excluded := true
  hidden _ := false
  default_valid := by
    intro d hd given
    cases hd
    exact .inl rfl
  excluded_default _ := rfl
  hidden_default := by nofun

/-- The field is read under these keys, the earlier ones first. -/
def readAs (f : Field α) (keys : List String) : Field α := { f with accepted := keys }

end Field

/-- The bindings of those fields that have a value, in the order of the class. -/
def assemble (fields : List (Field α)) (value? : Field α → Option (Node α)) : Fields α :=
  fields.filterMap fun f => (value? f).map fun v => (f.name, v)

variable {fields : List (Field α)} {f : Field α} {vs : Fields α} {g : Field α → Option (Node α)}

theorem assemble_congr {h : Field α → Option (Node α)} (hgh : ∀ f ∈ fields, g f = h f) :
    assemble fields g = assemble fields h := by
  refine List.filterMap_congr fun f hf => ?_
  rw [hgh f hf]

theorem mem_assemble {e : String × Node α} :
    e ∈ assemble fields g ↔ ∃ f ∈ fields, f.name = e.1 ∧ g f = some e.2 := by
  simp only [assemble, List.mem_filterMap, Option.map_eq_some_iff]
  constructor
  · rintro ⟨f, hf, v, hv, rfl⟩
    exact ⟨f, hf, rfl, hv⟩
  · rintro ⟨f, hf, hname, hv⟩
    exact ⟨f, hf, e.2, hv, by rw [hname]⟩

theorem lookup_assemble_of_not_mem (g : Field α → Option (Node α)) {k : String}
    (hk : k ∉ fields.map Field.name) : (assemble fields g).lookup k = none := by
  rw [List.lookup_eq_none_iff]
  intro e he
  have ⟨f, hf, hname, _⟩ := mem_assemble.mp he
  have hmem : e.1 ∈ fields.map Field.name := hname ▸ List.mem_map_of_mem hf
  simp only [bne_iff_ne, ne_eq]
  rintro rfl
  exact hk hmem

theorem lookup_assemble (hn : (fields.map Field.name).Nodup) (g : Field α → Option (Node α))
    (hf : f ∈ fields) : (assemble fields g).lookup f.name = g f := by
  induction fields with
  | nil => simp at hf
  | cons f0 fs ih =>
    simp only [List.map_cons, List.nodup_cons] at hn
    cases List.mem_cons.mp hf with
    | inl heq =>
      subst heq
      cases hg : g f with
      | some v => simp [assemble, hg]
      | none =>
        have htail := lookup_assemble_of_not_mem g hn.1
        simpa [assemble, hg] using htail
    | inr hmem =>
      have hne : f.name ≠ f0.name := by
        intro heq
        exact hn.1 (heq ▸ List.mem_map_of_mem hmem)
      have htail := ih hn.2 hmem
      cases hg : g f0 with
      | none => simpa [assemble, hg] using htail
      | some v =>
        have hbeq : (f.name == f0.name) = false := by simpa using hne
        simpa [assemble, hg, List.lookup_cons, hbeq] using htail

/-- The value of a field in an instance. -/
def valueOf (vs : Fields α) (f : Field α) : Node α := (vs.lookup f.name).getD .null

def dumpAll (fields : List (Field α)) (vs : Fields α) : Fields α :=
  assemble fields fun f => f.dumpOf (valueOf vs f)

def bareAll (fields : List (Field α)) (vs : Fields α) : Fields α :=
  assemble fields fun f => some (f.bare (valueOf vs f))

/-- What reading the dump gives, for an instance that comes back. -/
def shownAll (fields : List (Field α)) (vs : Fields α) : Fields α :=
  assemble fields fun f =>
    if f.shown (valueOf vs f) then some (f.bare (valueOf vs f)) else none

/-- The values of an instance are what was given and the defaults beside it. -/
structure Filled (fields : List (Field α)) (given vs : Fields α) : Prop where
  assembled : vs = assemble fields fun f => f.filled given
  filled : ∀ f ∈ fields, f.filled given = some (valueOf vs f)
  read : ∀ f ∈ fields, ∀ v, given.lookup f.name = some v → f.schema.Valid v

/-- A value is one that was read, or the default beside the given ones. -/
theorem Filled.cases {fields : List (Field α)} {given vs : Fields α} (h : Filled fields given vs)
    {f : Field α} (hf : f ∈ fields) :
    (given.lookup f.name = some (valueOf vs f) ∧ f.schema.Valid (valueOf vs f)) ∨
      (given.lookup f.name = none ∧ ∃ d, f.default = some d ∧ d given = valueOf vs f) := by
  have hfill := h.filled f hf
  cases hl : given.lookup f.name with
  | some v =>
    simp only [Field.filled, hl, Option.some.injEq] at hfill
    subst hfill
    exact .inl ⟨rfl, h.read f hf _ hl⟩
  | none =>
    simp only [Field.filled, hl] at hfill
    have ⟨d, hd, hv⟩ := Option.map_eq_some_iff.mp hfill
    exact .inr ⟨rfl, d, hd, hv⟩

theorem Filled.holds {given : Fields α} (h : Filled fields given vs) (hf : f ∈ fields) :
    f.Holds (valueOf vs f) := by
  cases h.cases hf with
  | inl hread => exact .inr hread.2
  | inr hdefault =>
    have ⟨_, d, hd, hv⟩ := hdefault
    exact hv ▸ f.default_valid d hd given

/-- A field whose type and default exclude null. -/
theorem Filled.not_null {given : Fields α} (h : Filled fields given vs) (hf : f ∈ fields)
    (hs : ∀ x, f.schema.Valid x → x.isNull = false)
    (hd : ∀ d, f.default = some d → ∀ g, (d g).isNull = false) : (valueOf vs f).isNull = false := by
  cases h.cases hf with
  | inl hread => exact hs _ hread.2
  | inr hdefault =>
    have ⟨_, d, hdef, hv⟩ := hdefault
    exact hv ▸ hd d hdef given

theorem mem_names_iff {entries : Fields α} {k : String} :
    k ∈ entries.map Prod.fst ↔ (entries.lookup k).isSome = true := by
  induction entries with
  | nil => simp
  | cons e es ih =>
    by_cases hk : k = e.1
    · subst hk
      simp
    · simp [hk, ih]

/-- The written fields of a dump are the shown ones. -/
theorem mem_shownAll_names (hn : (fields.map Field.name).Nodup) (vs : Fields α) (hf : f ∈ fields) :
    f.name ∈ (shownAll fields vs).map Prod.fst ↔ f.shown (valueOf vs f) = true := by
  rw [mem_names_iff, shownAll, lookup_assemble hn _ hf]
  split_ifs with hs <;> simp [hs]

/-- A field that was not written holds its default. -/
theorem Filled.default_of_not_written {given : Fields α} (h : Filled fields given vs)
    (hf : f ∈ fields) {v : Node α} (hd : f.default = some fun _ => v)
    (hw : (given.map Prod.fst).contains f.name = false) : valueOf vs f = v := by
  have hnone : given.lookup f.name = none := by
    rw [← Option.not_isSome_iff_eq_none, ← mem_names_iff]
    simpa using hw
  cases h.cases hf with
  | inl hread => rw [hnone] at hread; cases hread.1
  | inr hdefault =>
    have ⟨_, d, hdef, hv⟩ := hdefault
    rw [hd] at hdef
    cases hdef
    exact hv.symm

/-- A plain field was written into the dump exactly if it is not null. -/
theorem written_iff_not_null (hn : (fields.map Field.name).Nodup) (vs : Fields α) (hf : f ∈ fields)
    (he : f.excluded = false) (hh : ∀ v, f.hidden v = false) :
    ((shownAll fields vs).map Prod.fst).contains f.name = !(valueOf vs f).isNull := by
  have hmem := mem_shownAll_names hn vs hf
  rw [Field.shown_eq he hh] at hmem
  rw [Bool.eq_iff_iff, List.contains_eq_mem, decide_eq_true_eq]
  exact hmem

/-- Names are distinct, and no field reads another one's name. -/
def wellNamed (fields : List (Field α)) : Bool :=
  decide (fields.map Field.name).Nodup &&
    fields.all fun f => f.accepted.contains f.name &&
      f.accepted.all fun k => k == f.name || !(fields.map Field.name).contains k

theorem names_nodup_of_named (h : wellNamed fields = true) : (fields.map Field.name).Nodup := by
  simp only [wellNamed, Bool.and_eq_true, decide_eq_true_eq] at h
  exact h.1

/-- A class of fields. `rule` checks values, and only what a dump shows; `presence`
checks which fields were given as well. -/
structure Model (α : Type) where
  forbid : Bool
  fields : List (Field α)
  rule : Fields α → Bool
  presence : List String → Fields α → Bool
  survives : Fields α → Bool
  named : wellNamed fields = true
  presence_again : ∀ given vs, Filled fields given vs →
    presence (given.map Prod.fst) vs = true →
    presence ((shownAll fields vs).map Prod.fst) (bareAll fields vs) = survives vs

namespace Model

theorem names_nodup (m : Model α) : (m.fields.map Field.name).Nodup :=
  names_nodup_of_named m.named

variable {f : Field α} {entries g vs ys : Fields α} {m : Model α}

theorem name_accepted (m : Model α) (hf : f ∈ m.fields) : f.name ∈ f.accepted := by
  have h := m.named
  simp only [wellNamed, Bool.and_eq_true, List.all_eq_true] at h
  simpa using (h.2 f hf).1

theorem own_keys (m : Model α) (hf : f ∈ m.fields) {k : String} (hk : k ∈ f.accepted)
    (hmem : k ∈ m.fields.map Field.name) : k = f.name := by
  have h := m.named
  simp only [wellNamed, Bool.and_eq_true, List.all_eq_true] at h
  have hor := (h.2 f hf).2 k hk
  simp only [Bool.or_eq_true, beq_iff_eq, Bool.not_eq_true', List.contains_eq_mem,
    decide_eq_false_iff_not] at hor
  cases hor with
  | inl heq => exact heq
  | inr hnot => exact absurd hmem hnot

/-- Some input key belongs to no field. -/
def unknown (m : Model α) (entries : Fields α) : Bool :=
  entries.any fun e => !m.fields.any fun f => f.matched entries == some e.1

def given (m : Model α) (entries : Fields α) : Option (Fields α) :=
  if m.fields.all fun f => (f.read entries).isSome then
    some (assemble m.fields fun f => (f.read entries).getD none)
  else none

def values (m : Model α) (given : Fields α) : Option (Fields α) :=
  if m.fields.all fun f => (f.filled given).isSome then
    some (assemble m.fields fun f => f.filled given)
  else none

def accepts (m : Model α) (given vs : Fields α) : Bool :=
  m.rule (bareAll m.fields vs) && m.presence (given.map Prod.fst) vs

def validateEntries (m : Model α) (entries : Fields α) : Option (Fields α) :=
  if m.forbid && m.unknown entries then none
  else
    (m.given entries).bind fun given =>
      (m.values given).bind fun vs => if m.accepts given vs then some vs else none

theorem given_eq_some :
    m.given entries = some g ↔
      (∀ f ∈ m.fields, f.read entries = some (g.lookup f.name)) ∧
        g = assemble m.fields fun f => (f.read entries).getD none := by
  unfold given
  constructor
  · intro h
    split at h
    case isTrue hall =>
      cases h
      refine ⟨fun f hf => ?_, rfl⟩
      have ⟨r, hr⟩ := Option.isSome_iff_exists.mp (List.all_eq_true.mp hall f hf)
      rw [lookup_assemble m.names_nodup _ hf, hr]
      rfl
    case isFalse => cases h
  · rintro ⟨hread, hg⟩
    have hall : (m.fields.all fun f => (f.read entries).isSome) = true := by
      rw [List.all_eq_true]
      intro f hf
      rw [hread f hf]
      rfl
    rw [if_pos hall, hg]

theorem values_eq_some :
    m.values g = some vs ↔
      (∀ f ∈ m.fields, f.filled g = some (valueOf vs f)) ∧
        vs = assemble m.fields fun f => f.filled g := by
  unfold values
  constructor
  · intro h
    split at h
    case isTrue hall =>
      cases h
      refine ⟨fun f hf => ?_, rfl⟩
      have ⟨v, hv⟩ := Option.isSome_iff_exists.mp (List.all_eq_true.mp hall f hf)
      rw [valueOf, lookup_assemble m.names_nodup _ hf, hv]
      rfl
    case isFalse => cases h
  · rintro ⟨hfill, hvs⟩
    have hall : (m.fields.all fun f => (f.filled g).isSome) = true := by
      rw [List.all_eq_true]
      intro f hf
      rw [hfill f hf]
      rfl
    rw [if_pos hall, hvs]

theorem filled_of_reads (hg : m.given entries = some g) (hvs : m.values g = some vs) :
    Filled m.fields g vs := by
  have ⟨hread, _⟩ := given_eq_some.mp hg
  have ⟨hfill, heq⟩ := values_eq_some.mp hvs
  refine ⟨heq, hfill, fun f hf v hv => ?_⟩
  have hr := hread f hf
  rw [hv] at hr
  unfold Field.read at hr
  split at hr
  case h_1 => cases hr
  case h_2 raw _ =>
    have ⟨w, hw, hwv⟩ := Option.map_eq_some_iff.mp hr
    exact ⟨raw, by rw [hw, Option.some.inj hwv]⟩

theorem lookup_dumpAll (m : Model α) (vs : Fields α) (hf : f ∈ m.fields) :
    (dumpAll m.fields vs).lookup f.name = f.dumpOf (valueOf vs f) :=
  lookup_assemble m.names_nodup _ hf

/-- Only the field's own name can be found in a dump. -/
theorem matched_dumpAll (m : Model α) (vs : Fields α) (hf : f ∈ m.fields) :
    f.matched (dumpAll m.fields vs) =
      if f.shown (valueOf vs f) then some f.name else none := by
  have hother : ∀ k ∈ f.accepted, k ≠ f.name → (dumpAll m.fields vs).lookup k = none := by
    intro k hk hne
    refine lookup_assemble_of_not_mem _ fun hmem => ?_
    exact hne (m.own_keys hf hk hmem)
  have hown := m.lookup_dumpAll vs hf
  split
  case isTrue hs =>
    have hself : ((dumpAll m.fields vs).lookup f.name).isSome = true := by
      rw [hown, Field.dumpOf, if_pos hs]
      rfl
    cases hm : f.matched (dumpAll m.fields vs) with
    | none =>
      have hnone := List.find?_eq_none.mp hm f.name (m.name_accepted hf)
      exact absurd hself hnone
    | some k =>
      have hk := List.mem_of_find?_eq_some hm
      have hsome := List.find?_some hm
      by_cases hkn : k = f.name
      · rw [hkn]
      · rw [hother k hk hkn] at hsome
        exact Bool.noConfusion hsome
  case isFalse hs =>
    refine List.find?_eq_none.mpr fun k hk => ?_
    by_cases hkn : k = f.name
    · rw [hkn, hown, Field.dumpOf, if_neg hs]
      simp
    · rw [hother k hk hkn]
      simp

theorem read_dumpAll (m : Model α) (vs : Fields α) (hf : f ∈ m.fields) :
    f.read (dumpAll m.fields vs) =
      if f.shown (valueOf vs f) then
        (f.schema.validate (f.schema.dump (valueOf vs f))).map some
      else some none := by
  unfold Field.read
  rw [m.matched_dumpAll vs hf]
  split_ifs with hs
  · simp only [Option.bind_some, m.lookup_dumpAll vs hf, Field.dumpOf, if_pos hs]
  · rfl

theorem unknown_dumpAll (m : Model α) (vs : Fields α) :
    m.unknown (dumpAll m.fields vs) = false := by
  rw [unknown, List.any_eq_false]
  intro e he
  have ⟨f, hf, hname, hv⟩ := mem_assemble.mp he
  have hs : f.shown (valueOf vs f) = true := by
    by_contra hs
    simp [Field.dumpOf, hs] at hv
  have hany : (m.fields.any fun f => f.matched (dumpAll m.fields vs) == some e.1) = true := by
    rw [List.any_eq_true]
    refine ⟨f, hf, ?_⟩
    rw [m.matched_dumpAll vs hf, if_pos hs, hname]
    exact beq_self_eq_true _
  simp [hany]

theorem valueOf_bareAll (m : Model α) (vs : Fields α) (hf : f ∈ m.fields) :
    valueOf (bareAll m.fields vs) f = f.bare (valueOf vs f) := by
  rw [valueOf, bareAll, lookup_assemble m.names_nodup _ hf]
  rfl

theorem bareAll_bareAll (m : Model α) (h : ∀ f ∈ m.fields, f.Holds (valueOf vs f)) :
    bareAll m.fields (bareAll m.fields vs) = bareAll m.fields vs := by
  refine assemble_congr fun f hf => ?_
  rw [m.valueOf_bareAll vs hf, Field.bare_bare (h f hf)]

/-- Equal dumped parts agree field by field. -/
theorem bare_eq_of_bareAll_eq (m : Model α) (h : bareAll m.fields ys = bareAll m.fields vs)
    (hf : f ∈ m.fields) : f.bare (valueOf ys f) = f.bare (valueOf vs f) := by
  rw [← m.valueOf_bareAll ys hf, ← m.valueOf_bareAll vs hf, h]

/-- The shown values survive one by one. -/
def ShownSurvive (m : Model α) (vs : Fields α) : Prop :=
  ∀ f ∈ m.fields, f.shown (valueOf vs f) = true → f.schema.survives (valueOf vs f) = true

theorem given_dumpAll (m : Model α) (h : ∀ f ∈ m.fields, f.Holds (valueOf vs f))
    (hs : m.ShownSurvive vs) : m.given (dumpAll m.fields vs) = some (shownAll m.fields vs) := by
  have hread : ∀ f ∈ m.fields, f.read (dumpAll m.fields vs) =
      some (if f.shown (valueOf vs f) then some (f.bare (valueOf vs f)) else none) := by
    intro f hf
    rw [m.read_dumpAll vs hf]
    split_ifs with hshown
    · have ⟨raw, hraw⟩ := Field.valid_of_shown (h f hf) hshown
      rw [f.schema.keeps hraw (hs f hf hshown), Field.bare_of_shown hshown]
      rfl
    · rfl
  rw [given_eq_some]
  constructor
  · intro f hf
    rw [hread f hf, shownAll, lookup_assemble m.names_nodup _ hf]
  · refine assemble_congr fun f hf => ?_
    rw [hread f hf]
    rfl

theorem lookup_shownAll (m : Model α) (vs : Fields α) (hf : f ∈ m.fields) :
    (shownAll m.fields vs).lookup f.name =
      if f.shown (valueOf vs f) then some (f.bare (valueOf vs f)) else none :=
  lookup_assemble m.names_nodup _ hf

theorem filled_shownAll (m : Model α) (vs : Fields α) (hf : f ∈ m.fields) :
    f.filled (shownAll m.fields vs) =
      if f.shown (valueOf vs f) then some (f.bare (valueOf vs f))
      else f.default.map fun d => d (shownAll m.fields vs) := by
  unfold Field.filled
  rw [m.lookup_shownAll vs hf]
  split_ifs <;> rfl

/-- A field that survives is filled with its dumped part again. -/
theorem filled_again (m : Model α) (hf : f ∈ m.fields)
    (hs : f.survives (shownAll m.fields vs) (valueOf vs f) = true) :
    f.filled (shownAll m.fields vs) = some (f.bare (valueOf vs f)) := by
  rw [m.filled_shownAll vs hf]
  cases hshown : f.shown (valueOf vs f) with
  | true => rfl
  | false =>
    simp only [Field.survives, hshown, Bool.false_eq_true, if_false, Bool.or_eq_true] at hs
    simp only [Bool.false_eq_true, if_false]
    cases he : f.excluded with
    | true => simp [f.excluded_default he, Field.bare, he]
    | false =>
      cases hn : (valueOf vs f).isNull with
      | false =>
        have hh : f.hidden (valueOf vs f) = true := by simpa [Field.shown, he, hn] using hshown
        have ⟨hd, hb⟩ := f.hidden_default _ hh
        simp [hd, Field.bare, he, hn, hb]
      | true =>
        have hnull := Node.isNull_iff.mp hn
        have hbare : f.bare (valueOf vs f) = .null := by simp [Field.bare, hn]
        rw [hbare]
        rw [he] at hs
        cases hh : f.hidden (valueOf vs f) with
        | true =>
          have ⟨hd, _⟩ := f.hidden_default _ hh
          rw [hd, hnull]
          rfl
        | false =>
          rw [hh] at hs
          simp only [Bool.false_eq_true, false_or] at hs
          cases hd : f.default with
          | none => simp [hd] at hs
          | some d =>
            simp only [hd, Option.elim_some] at hs
            simp only [Option.map_some]
            rw [Node.isNull_iff.mp hs]

def survivesAll (m : Model α) (vs : Fields α) : Bool :=
  (m.fields.all fun f => f.survives (shownAll m.fields vs) (valueOf vs f)) && m.survives vs

theorem shownSurvive_of_all (m : Model α)
    (h : ∀ f ∈ m.fields, f.survives (shownAll m.fields vs) (valueOf vs f) = true) :
    m.ShownSurvive vs := by
  intro f hf hshown
  simpa [Field.survives, hshown] using h f hf

theorem values_shownAll (m : Model α)
    (hs : ∀ f ∈ m.fields, f.survives (shownAll m.fields vs) (valueOf vs f) = true) :
    m.values (shownAll m.fields vs) = some (bareAll m.fields vs) := by
  rw [values_eq_some]
  constructor
  · intro f hf
    rw [m.filled_again hf (hs f hf), m.valueOf_bareAll vs hf]
  · refine assemble_congr fun f hf => ?_
    rw [m.filled_again hf (hs f hf)]

/-- What a class knows of its instances, whatever input they came from. -/
structure Instance (m : Model α) (vs : Fields α) : Prop where
  holds : ∀ f ∈ m.fields, f.Holds (valueOf vs f)
  rule : m.rule (bareAll m.fields vs) = true
  presence : m.presence ((shownAll m.fields vs).map Prod.fst) (bareAll m.fields vs) =
    m.survives vs

theorem Instance.accepts_again (h : m.Instance vs) :
    m.accepts (shownAll m.fields vs) (bareAll m.fields vs) = m.survives vs := by
  simp only [accepts, m.bareAll_bareAll h.holds, h.rule, Bool.true_and, h.presence]

theorem validateEntries_eq_some :
    m.validateEntries entries = some vs ↔
      (m.forbid && m.unknown entries) = false ∧
        ∃ g, m.given entries = some g ∧ m.values g = some vs ∧ m.accepts g vs = true := by
  unfold validateEntries
  cases m.forbid && m.unknown entries with
  | true => simp
  | false =>
    simp only [Bool.false_eq_true, if_false, true_and, Option.bind_eq_some_iff,
      Option.ite_none_right_eq_some, Option.some.injEq]
    constructor
    · rintro ⟨g, hg, ws, hws, ha, rfl⟩
      exact ⟨g, hg, hws, ha⟩
    · rintro ⟨g, hg, hvs, ha⟩
      exact ⟨g, hg, vs, hvs, ha, rfl⟩

theorem instance_of_validate (h : m.validateEntries entries = some vs) : m.Instance vs := by
  have ⟨_, g, hg, hvs, ha⟩ := validateEntries_eq_some.mp h
  have hfilled := filled_of_reads hg hvs
  simp only [accepts, Bool.and_eq_true] at ha
  exact ⟨fun _ hf => hfilled.holds hf, ha.1, m.presence_again g vs hfilled ha.2⟩

theorem keeps_entries (m : Model α) (h : m.Instance vs) (hs : m.survivesAll vs = true) :
    m.validateEntries (dumpAll m.fields vs) = some (bareAll m.fields vs) := by
  simp only [survivesAll, Bool.and_eq_true, List.all_eq_true] at hs
  rw [validateEntries_eq_some]
  refine ⟨by rw [m.unknown_dumpAll, Bool.and_false], shownAll m.fields vs, ?_, ?_, ?_⟩
  · exact m.given_dumpAll h.holds (m.shownSurvive_of_all hs.1)
  · exact m.values_shownAll hs.1
  · rw [h.accepts_again, hs.2]

/-- A dump that is read back with the same dumped part shows only values that
survive. -/
theorem shownSurvive_of_returns (m : Model α) {g' : Fields α}
    (h : ∀ f ∈ m.fields, f.Holds (valueOf vs f)) (hg : m.given (dumpAll m.fields vs) = some g')
    (hys : m.values g' = some ys) (hb : bareAll m.fields ys = bareAll m.fields vs) :
    m.ShownSurvive vs := by
  intro f hf hshown
  have ⟨raw, hraw⟩ := Field.valid_of_shown (h f hf) hshown
  have hread := (given_eq_some.mp hg).1 f hf
  rw [m.read_dumpAll vs hf, if_pos hshown] at hread
  have ⟨y, hy, hlook⟩ := Option.map_eq_some_iff.mp hread
  have hfill := (values_eq_some.mp hys).1 f hf
  simp only [Field.filled, ← hlook, Option.some.injEq] at hfill
  have hbare := m.bare_eq_of_bareAll_eq hb hf
  rw [← hfill, Field.bare_of_shown hshown] at hbare
  have hne : (f.schema.bare (valueOf vs f)).isNull = false := by
    rw [f.schema.bare_isNull hraw]
    simp only [Field.shown, Bool.not_eq_true', Bool.or_eq_false_iff] at hshown
    exact hshown.1.2
  have hy0 : (f.excluded || y.isNull) = false := by
    by_contra hcon
    simp only [Bool.not_eq_false] at hcon
    rw [Field.bare, if_pos hcon] at hbare
    rw [← hbare] at hne
    exact Bool.noConfusion hne
  rw [Field.bare, if_neg (by simp [hy0])] at hbare
  exact f.schema.returns hraw hy hbare

/-- Nor does such a dump leave out a null whose default is another value. -/
theorem survives_of_returns (m : Model α) (h : ∀ f ∈ m.fields, f.Holds (valueOf vs f))
    (hys : m.values (shownAll m.fields vs) = some ys)
    (hb : bareAll m.fields ys = bareAll m.fields vs) (hf : f ∈ m.fields) (hs : m.ShownSurvive vs) :
    f.survives (shownAll m.fields vs) (valueOf vs f) = true := by
  cases hshown : f.shown (valueOf vs f) with
  | true => simpa [Field.survives, hshown] using hs f hf hshown
  | false =>
    have hfill := (values_eq_some.mp hys).1 f hf
    rw [m.filled_shownAll vs hf] at hfill
    simp only [hshown, Bool.false_eq_true, if_false] at hfill
    have ⟨d, hd, hdy⟩ := Option.map_eq_some_iff.mp hfill
    simp only [Field.survives, hshown, Bool.false_eq_true, if_false, hd, Option.elim_some]
    cases he : f.excluded with
    | true => rfl
    | false =>
      cases hh : f.hidden (valueOf vs f) with
      | true => rfl
      | false =>
        have hn : (valueOf vs f).isNull = true := by simpa [Field.shown, he, hh] using hshown
        have hholds : f.Holds (valueOf ys f) := hdy ▸ f.default_valid d hd _
        have hbare := m.bare_eq_of_bareAll_eq hb hf
        have hynull := Field.bare_isNull hholds he
        rw [hbare, Field.bare_isNull (h f hf) he, hn] at hynull
        simp [hdy, ← hynull]

theorem returns_entries (m : Model α) (h : m.Instance vs)
    (hy : m.validateEntries (dumpAll m.fields vs) = some ys)
    (hb : bareAll m.fields ys = bareAll m.fields vs) : m.survivesAll vs = true := by
  have ⟨_, g, hg, hys, hay⟩ := validateEntries_eq_some.mp hy
  have hshown := m.shownSurvive_of_returns h.holds hg hys hb
  have hg' := m.given_dumpAll h.holds hshown
  rw [hg] at hg'
  cases hg'
  have hall : ∀ f ∈ m.fields, f.survives (shownAll m.fields vs) (valueOf vs f) = true :=
    fun f hf => m.survives_of_returns h.holds hys hb hf hshown
  have hagain := m.values_shownAll hall
  rw [hys] at hagain
  cases hagain
  rw [h.accepts_again] at hay
  simp only [survivesAll, Bool.and_eq_true, List.all_eq_true]
  exact ⟨hall, hay⟩

/-- The codec of the entries of a class. -/
def codec (m : Model α) : Codec (Fields α) where
  validate := m.validateEntries
  dump := dumpAll m.fields
  bare := bareAll m.fields
  survives := m.survivesAll
  keeps h hs := m.keeps_entries (instance_of_validate h) hs
  returns h hy hb := m.returns_entries (instance_of_validate h) hy hb
  bare_bare h := m.bareAll_bareAll (instance_of_validate h).holds

/-- The schema of a class. -/
def schema (m : Model α) : Schema α where
  toCodec := m.codec.along .obj Node.entries? Node.entries?_obj
  bare_isNull h := (Codec.along_isNull (fun _ => rfl) h).1
  dump_isNull h _ := (Codec.along_isNull (fun _ => rfl) h).2

end Model

namespace Model

variable {m : Model α}

theorem validate_eq_some {raw x : Node α} (h : m.schema.validate raw = some x) :
    ∃ entries vs, raw = .obj entries ∧ m.validateEntries entries = some vs ∧ x = .obj vs := by
  have ⟨entries, he, hb⟩ := Option.bind_eq_some_iff.mp h
  have ⟨vs, hvs, hx⟩ := Option.map_eq_some_iff.mp hb
  cases raw with
  | obj es =>
    cases he
    exact ⟨entries, vs, rfl, hvs, hx.symm⟩
  | null => cases he
  | atom a => cases he
  | list items => cases he

theorem filled_of_validate {entries : Fields α} (h : m.validateEntries entries = some vs) :
    ∃ g, Filled m.fields g vs := by
  have ⟨_, g, hg, hvs, _⟩ := validateEntries_eq_some.mp h
  exact ⟨g, filled_of_reads hg hvs⟩

theorem shaped (m : Model α) : m.schema.Shaped fun v => v.entries?.isSome := by
  intro raw x h
  have ⟨entries, vs, _, _, hx⟩ := validate_eq_some h
  subst hx
  exact ⟨rfl, rfl, rfl⟩

/-- The value under a key, for a test on documents. -/
def member (key : String) (test : Option (Node α) → Bool) (v : Node α) : Bool :=
  v.entries?.elim false fun entries => test (entries.lookup key)

/-- No instance has a key that names no field. -/
theorem shaped_of_not_named (m : Model α) {key : String}
    (hnamed : (m.fields.map Field.name).contains key = false) :
    m.schema.Shaped (member key Option.isNone) := by
  intro raw x h
  have hk : key ∉ m.fields.map Field.name := by
    rwa [List.contains_eq_mem, decide_eq_false_iff_not] at hnamed
  have ⟨entries, vs, _, hvs, hx⟩ := validate_eq_some h
  subst hx
  have ⟨g, hfilled⟩ := filled_of_validate hvs
  have hself : vs.lookup key = none := by
    rw [hfilled.assembled]
    exact lookup_assemble_of_not_mem _ hk
  have hdump : (dumpAll m.fields vs).lookup key = none := lookup_assemble_of_not_mem _ hk
  have hbare : (bareAll m.fields vs).lookup key = none := lookup_assemble_of_not_mem _ hk
  constructor
  · simp [member, Node.entries?, hself]
  · constructor
    · change member key Option.isNone (.obj (dumpAll m.fields vs)) = true
      simp [member, Node.entries?, hdump]
    · change member key Option.isNone (.obj (bareAll m.fields vs)) = true
      simp [member, Node.entries?, hbare]

/-- A test that passes every value of a field, its dump and its dumped part. -/
theorem shaped_of_field (m : Model α) (hf : f ∈ m.fields) (test : Node α → Bool)
    (hnull : test .null = false) (hs : f.schema.Shaped test)
    (hdefault : ∀ d, f.default = some d → ∀ g, test (d g) = true) (hexcluded : f.excluded = false)
    (hhidden : ∀ v, f.hidden v = false) :
    m.schema.Shaped (member f.name fun o => o.elim false test) := by
  intro raw x h
  have ⟨entries, vs, _, hvs, hx⟩ := validate_eq_some h
  subst hx
  have ⟨g, hfilled⟩ := filled_of_validate hvs
  have hlook : vs.lookup f.name = some (valueOf vs f) := by
    have hassembled := hfilled.assembled
    have hval := hfilled.filled f hf
    rw [hassembled, lookup_assemble m.names_nodup _ hf, hval, ← hassembled]
  have htest : test (valueOf vs f) = true := by
    cases hfilled.cases hf with
    | inl hread =>
      have ⟨raw', hraw'⟩ := hread.2
      exact (hs _ _ hraw').1
    | inr hdef =>
      have ⟨_, d, hd, hv⟩ := hdef
      exact hv ▸ hdefault d hd g
  have hne : (valueOf vs f).isNull = false := by
    by_contra hcon
    simp only [Bool.not_eq_false] at hcon
    rw [Node.isNull_iff.mp hcon, hnull] at htest
    exact Bool.noConfusion htest
  have ⟨raw', hraw'⟩ : f.schema.Valid (valueOf vs f) := by
    cases hfilled.holds hf with
    | inl hcon => rw [hne] at hcon; cases hcon
    | inr hvalid => exact hvalid
  have hshown : f.shown (valueOf vs f) = true := by simp [Field.shown, hexcluded, hhidden, hne]
  constructor
  · simp [member, Node.entries?, hlook, htest]
  · constructor
    · change member f.name _ (.obj (dumpAll m.fields vs)) = true
      simp [member, Node.entries?, m.lookup_dumpAll vs hf, Field.dumpOf, hshown, (hs _ _ hraw').2.1]
    · change member f.name _ (.obj (bareAll m.fields vs)) = true
      have hb : (bareAll m.fields vs).lookup f.name = some (f.bare (valueOf vs f)) :=
        lookup_assemble m.names_nodup _ hf
      simp [member, Node.entries?, hb, Field.bare_of_shown hshown, (hs _ _ hraw').2.2]

end Model

end Cruxible.ModelClasses

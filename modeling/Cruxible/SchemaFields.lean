import Cruxible.JsonValue
import Cruxible.ModelClasses

/-!
# Field types of the configuration classes

The scalars that YAML and JSON give, the two dump modes, and the kinds of fields
that the classes of `config/schema.py` and `procedure/types.py` declare.
-/

namespace Cruxible.SchemaFields

open JsonValue (PyFloat)
open ModelSchemas ModelClasses

/-- A Python scalar; `moment` is a YAML date or datetime with its ISO text. -/
inductive Scalar where
  | bool (b : Bool)
  | int (i : Int)
  | float (x : PyFloat)
  | str (s : String)
  | moment (text : String)

abbrev Doc := Node Scalar

def str (s : String) : Doc := .atom (.str s)

def bool (b : Bool) : Doc := .atom (.bool b)

def int (i : Int) : Doc := .atom (.int i)

def text? : Doc → Option String
  | .atom (.str s) => some s
  | _ => none

def isText (d : Doc) : Bool := (text? d).isSome

inductive DumpMode where
  | python
  | json

/-- `mode="json"`: a non-finite float becomes null, a moment its text. -/
def jsonScalar : Scalar → Doc
  | .float .posInf => .null
  | .float .negInf => .null
  | .float .nan => .null
  | .moment text => str text
  | a => .atom a

def plainScalar : Scalar → Bool
  | .float .posInf => false
  | .float .negInf => false
  | .float .nan => false
  | .moment _ => false
  | _ => true

theorem plainScalar_iff (a : Scalar) : plainScalar a = true ↔ jsonScalar a = .atom a := by
  cases a with
  | float x => cases x <;> simp [plainScalar, jsonScalar]
  | moment text => simp [plainScalar, jsonScalar, str]
  | bool b | int i | str s => simp [plainScalar, jsonScalar]

mutual
def jsonDoc : Doc → Doc
  | .null => .null
  | .atom a => jsonScalar a
  | .list items => .list (jsonItems items)
  | .obj entries => .obj (jsonEntries entries)
def jsonItems : List Doc → List Doc
  | [] => []
  | d :: ds => jsonDoc d :: jsonItems ds
def jsonEntries : Fields Scalar → Fields Scalar
  | [] => []
  | (k, d) :: es => (k, jsonDoc d) :: jsonEntries es

end

mutual
/-- Documents that JSON can hold: no non-finite float and no moment. -/
def plainDoc : Doc → Bool
  | .null => true
  | .atom a => plainScalar a
  | .list items => plainItems items
  | .obj entries => plainEntries entries
def plainItems : List Doc → Bool
  | [] => true
  | d :: ds => plainDoc d && plainItems ds
def plainEntries : Fields Scalar → Bool
  | [] => true
  | (_, d) :: es => plainDoc d && plainEntries es

end

mutual
theorem plainDoc_iff : ∀ d : Doc, plainDoc d = true ↔ jsonDoc d = d
  | .null => by simp [plainDoc, jsonDoc]
  | .atom a => by simpa [plainDoc, jsonDoc] using plainScalar_iff a
  | .list items => by simpa [plainDoc, jsonDoc] using plainItems_iff items
  | .obj entries => by simpa [plainDoc, jsonDoc] using plainEntries_iff entries
theorem plainItems_iff : ∀ ds : List Doc, plainItems ds = true ↔ jsonItems ds = ds
  | [] => by simp [plainItems, jsonItems]
  | d :: ds => by simp [plainItems, jsonItems, plainDoc_iff d, plainItems_iff ds]
theorem plainEntries_iff : ∀ es : Fields Scalar, plainEntries es = true ↔ jsonEntries es = es
  | [] => by simp [plainEntries, jsonEntries]
  | (k, d) :: es => by simp [plainEntries, jsonEntries, plainDoc_iff d, plainEntries_iff es]

end

def DumpMode.render : DumpMode → Doc → Doc
  | .python => id
  | .json => jsonDoc

def DumpMode.plain : DumpMode → Doc → Bool
  | .python => fun _ => true
  | .json => plainDoc

theorem DumpMode.plain_iff (mode : DumpMode) (d : Doc) :
    mode.plain d = true ↔ mode.render d = d := by
  cases mode with
  | python => simp [plain, render]
  | json => exact plainDoc_iff d

/-- `str`. -/
def textReader : Reader Scalar where
  read raw := if isText raw then some raw else none
  stable := by
    intro raw x h
    split at h
    case isTrue ht =>
      cases h
      rw [if_pos ht]
    case isFalse => cases h

/-- `Literal[...]` over texts. -/
def literalReader (options : List String) : Reader Scalar :=
  textReader.restrict fun d => (text? d).elim false fun s => options.contains s

/-- `str | int | float | bool`: the value keeps the type it has. -/
def isPrimitive : Doc → Bool
  | .atom (.moment _) => false
  | .atom _ => true
  | _ => false

/-- What the classes take from outside: the coercions of the validation library to
`int`, `float` and `bool`, and the value checks of each class, which are functions
of the values that a dump shows; those of the whole configuration also see whether
it is one layer of several. Nothing below depends on what they accept. -/
structure Env where
  mode : DumpMode
  intReader : Reader Scalar
  floatReader : Reader Scalar
  boolReader : Reader Scalar
  int_self : ∀ i, intReader.read (int i) = some (int i)
  bool_self : ∀ b, boolReader.read (bool b) = some (bool b)
  rule : String → Fields Scalar → Bool
  rootRule : Bool → Fields Scalar → Bool

/-- Scalars of one kind, without coercion. -/
def kindReader (kind : Scalar → Bool) : Reader Scalar where
  read raw :=
    match raw with
    | .atom a => if kind a then some raw else none
    | _ => none
  stable := by
    intro raw x h
    split at h
    case h_1 a =>
      split at h
      case isTrue ha =>
        cases h
        simp [ha]
      case isFalse => cases h
    case h_2 => cases h

/-- The environment that coerces nothing and has no value checks beyond those that
the classes below state themselves. -/
def Env.strict (mode : DumpMode) : Env where
  mode := mode
  intReader := kindReader fun a => match a with | .int _ => true | _ => false
  floatReader := kindReader fun a => match a with | .float _ => true | _ => false
  boolReader := kindReader fun a => match a with | .bool _ => true | _ => false
  int_self _ := rfl
  bool_self _ := rfl
  rule _ _ := true
  rootRule _ _ := true

def text : Schema Scalar := .leaf textReader

def literal (options : List String) : Schema Scalar := .leaf (literalReader options)

namespace Env

def any (env : Env) : Schema Scalar := .any env.mode.render env.mode.plain env.mode.plain_iff

def primitive (env : Env) : Schema Scalar := env.any.guarded isPrimitive

def bool (env : Env) : Schema Scalar := .leaf env.boolReader

def int (env : Env) : Schema Scalar := .leaf env.intReader

/-- An integer with a lower bound. -/
def intFrom (env : Env) (low : Int) : Schema Scalar :=
  .leaf (env.intReader.restrict fun d =>
    match d with
    | .atom (.int i) => decide (low ≤ i)
    | _ => false)

/-- An integer within bounds. -/
def intWithin (env : Env) (low high : Int) : Schema Scalar :=
  .leaf (env.intReader.restrict fun d =>
    match d with
    | .atom (.int i) => decide (low ≤ i ∧ i ≤ high)
    | _ => false)

def float (env : Env) : Schema Scalar := .leaf env.floatReader

/-- A float above one bound and up to another. -/
def floatWithin (env : Env) (low high : Rat) : Schema Scalar :=
  .leaf (env.floatReader.restrict fun d =>
    match d with
    | .atom (.float (.finite q)) => decide (low < q ∧ q ≤ high)
    | _ => false)

theorem intFrom_valid (env : Env) {low i : Int} (h : low ≤ i) :
    (env.intFrom low).Valid (SchemaFields.int i) := by
  refine ⟨SchemaFields.int i, ?_⟩
  simp only [intFrom, Schema.leaf, Reader.restrict, env.int_self, Option.filter_some]
  simp [SchemaFields.int, h]

end Env

theorem literal_valid {options : List String} {s : String} (h : options.contains s = true) :
    (literal options).Valid (str s) := by
  refine ⟨str s, ?_⟩
  have hread : textReader.read (str s) = some (str s) := rfl
  simp only [literal, Schema.leaf, literalReader, Reader.restrict, hread, Option.filter_some]
  simp only [str, text?, Option.elim_some, h, if_true]

/-- `str | T` and `Literal[...] | T`, told apart by the type of the value. -/
def textOr (t s : Schema Scalar) (ht : t.Shaped isText) (hs : s.Shaped fun d => !isText d) :
    Schema Scalar :=
  .choose (fun raw => if isText raw then some t else some s) (by
    intro raw u x hu hx
    cases hraw : isText raw with
    | true =>
      simp only [hraw, if_true, Option.some.injEq] at hu
      subst hu
      have ⟨h1, h2, h3⟩ := ht raw x hx
      simp [h1, h2, h3]
    | false =>
      simp only [hraw, Bool.false_eq_true, if_false, Option.some.injEq] at hu
      subst hu
      have ⟨h1, h2, h3⟩ := hs raw x hx
      simp only [Bool.not_eq_true'] at h1 h2 h3
      simp [h1, h2, h3])

/-- A union of two classes, told apart by a key that only the first one has. -/
def byMember (key : String) (yes no : Schema Scalar)
    (hyes : yes.Shaped (Model.member key Option.isSome))
    (hno : no.Shaped (Model.member key Option.isNone)) : Schema Scalar :=
  .choose (fun raw => if Model.member key Option.isSome raw then some yes else some no) (by
    have hflip : ∀ d : Doc, Model.member key Option.isNone d = true →
        Model.member key Option.isSome d = false := by
      intro d hd
      cases he : d.entries? with
      | none => simp [Model.member, he]
      | some entries => simpa [Model.member, he] using hd
    intro raw u x hu hx
    cases hraw : Model.member key Option.isSome raw with
    | true =>
      simp only [hraw, if_true, Option.some.injEq] at hu
      subst hu
      have ⟨h1, h2, h3⟩ := hyes raw x hx
      simp [h1, h2, h3]
    | false =>
      simp only [hraw, Bool.false_eq_true, if_false, Option.some.injEq] at hu
      subst hu
      have ⟨h1, h2, h3⟩ := hno raw x hx
      simp [hflip _ h1, hflip _ h2, hflip _ h3])

theorem text_shaped : text.Shaped isText := by
  intro raw x h
  have hx : isText x = true := by
    simp only [text, Schema.leaf, textReader] at h
    split at h
    case isTrue ht =>
      cases h
      exact ht
    case isFalse => cases h
  exact ⟨hx, hx, hx⟩

theorem literal_shaped (options : List String) (test : Doc → Bool)
    (htest : ∀ s ∈ options, test (str s) = true) : (literal options).Shaped test := by
  intro raw x h
  have ⟨hx, hs⟩ := Option.filter_eq_some_iff.mp h
  have htext := (text_shaped _ _ hx).1
  have hself : test x = true := by
    cases x with
    | atom a =>
      cases a with
      | str s =>
        simp only [text?, Option.elim_some, List.contains_eq_mem, decide_eq_true_eq] at hs
        exact htest s hs
      | _ => cases htext
    | _ => cases htext
  exact ⟨hself, hself, hself⟩

theorem not_isText_of_entries {d : Doc} (h : d.entries?.isSome = true) : (!isText d) = true := by
  cases d with
  | obj entries => rfl
  | _ => cases h

theorem not_isText_of_items {d : Doc} (h : d.items?.isSome = true) : (!isText d) = true := by
  cases d with
  | list items => rfl
  | _ => cases h

theorem dict_not_text (value : Schema Scalar) : (Schema.dict value).Shaped fun d => !isText d :=
  Schema.shaped_mono (Schema.dict_shaped value) fun _ => not_isText_of_entries

theorem list_not_text (item : Schema Scalar) : (Schema.list item).Shaped fun d => !isText d :=
  Schema.shaped_mono (Schema.list_shaped item) fun _ => not_isText_of_items

theorem class_not_text (m : Model Scalar) : m.schema.Shaped fun d => !isText d :=
  Schema.shaped_mono m.shaped fun _ => not_isText_of_entries

/-- A list with at least one item. -/
def nonEmptyList (item : Schema Scalar) : Schema Scalar :=
  (Schema.list item).guarded fun d => d.items?.any fun items => !items.isEmpty

/-- `name: T | None = None`. -/
def nullable (name : String) (schema : Schema Scalar) : ModelClasses.Field Scalar :=
  .optional name schema.orNull

/-- `name: Literal[...] = default`. -/
def choice (name : String) (options : List String) (default : String)
    (h : options.contains default = true := by decide) : ModelClasses.Field Scalar :=
  .defaulted name (literal options) (str default) (literal_valid h)

/-- `name: bool = default`. -/
def flag (env : Env) (name : String) (default : Bool) : ModelClasses.Field Scalar :=
  .defaulted name env.bool (bool default) ⟨bool default, env.bool_self default⟩

/-- `name: list[T] = []`. -/
def listOf (name : String) (item : Schema Scalar) : ModelClasses.Field Scalar :=
  .defaulted name (.list item) (.list []) ⟨.list [], rfl⟩

/-- `name: dict[str, T] = {}`. -/
def dictOf (name : String) (value : Schema Scalar) : ModelClasses.Field Scalar :=
  .defaulted name (.dict value) (.obj []) ⟨.obj [], rfl⟩

/-- A class whose checks look at values only. -/
def checked (forbid : Bool) (rule : Fields Scalar → Bool)
    (fields : List (ModelClasses.Field Scalar))
    (named : wellNamed fields = true := by rfl) : Model Scalar where
  forbid := forbid
  fields := fields
  rule := rule
  presence _ _ := true
  survives _ := true
  named := named
  presence_again _ _ _ _ := rfl

/-- A class without checks of its own. -/
def plain (forbid : Bool) (fields : List (ModelClasses.Field Scalar))
    (named : wellNamed fields = true := by rfl) : Model Scalar :=
  checked forbid (fun _ => true) fields named

end Cruxible.SchemaFields

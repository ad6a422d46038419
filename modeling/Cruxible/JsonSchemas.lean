import Cruxible.CanonicalJson
import Cruxible.FallibleLoops
import Cruxible.PropertyValidation
import Mathlib.Data.List.Infix

/-!
# Nested JSON schemas

The validator of `config/json_schema_validation.py` for the schema of a json field. It
recurses over the schema, which is JSON that a contract carries: a contract of the
configuration has had its shape checked, a contract inside a procedure has not. Integers have
any number of digits.
-/
namespace Cruxible.JsonSchemas
open JsonValue PythonDict Fallible PropertyValidation
open Value

/-- What the validation of a field can raise. Only `ValueError` is collected. -/
inductive FieldError where
  | valueError (message : String)
  | overflowError (message : String)
  | attributeError (message : String)
  | typeError (message : String)
  deriving DecidableEq

/-- An outcome that the callers handle. -/
def Collected {α : Type} : Except FieldError α → Prop
  | .ok _ => True
  | .error (.valueError _) => True
  | .error _ => False

abbrev Fields := List (String × Value)

abbrev Enums := Dict String (List String)

/-- `enum_ref_values`. -/
def enumRefValues (enums : Enums) (enumRef : String) : Except FieldError (List String) :=
  match enums.get? enumRef with
  | some values => .ok values
  | none => .error (.valueError ("enum_ref '" ++ enumRef ++ "' is not defined"))

def hashable : Value → Bool
  | .array _ => false
  | .object _ => false
  | _ => true

/-- `value in container`. -/
def isMember (value : Value) : Value → Except FieldError Bool
  | .array items => .ok (items.any fun item => pyEq value item)
  | .object entries =>
      if hashable value then .ok (entries.any fun e => decide (value = .str e.1))
      else .error (.typeError ("unhashable type: '" ++ typeName value ++ "'"))
  | .str text =>
      match value with
      | .str part => .ok (decide (part.toList <:+: text.toList))
      | v => .error (.typeError
          ("'in <string>' requires string as left operand, not " ++ typeName v))
  | container =>
      .error (.typeError ("argument of type '" ++ typeName container ++ "' is not iterable"))

/-- The texts of the items that a loop over the container would give. -/
def itemTexts (str : Value → String) : Value → List String
  | .array items => items.map str
  | .object entries => entries.map Prod.fst
  | .str text => text.toList.map String.singleton
  | _ => []

/-- `SUPPORTED_TYPES`. -/
inductive JsonType where
  | object
  | array
  | string
  | number
  | integer
  | boolean
  | null
  deriving DecidableEq

namespace JsonType

def ofText : String → Option JsonType
  | "object" => some .object
  | "array" => some .array
  | "string" => some .string
  | "number" => some .number
  | "integer" => some .integer
  | "boolean" => some .boolean
  | "null" => some .null
  | _ => none

/-- What a value must be. -/
def noun : JsonType → String
  | .object => "an object"
  | .array => "an array"
  | .string => "a string"
  | .number => "a number"
  | .integer => "an integer"
  | .boolean => "a boolean"
  | .null => "null"

def admits : JsonType → Value → Bool
  | .object, .object _ => true
  | .array, .array _ => true
  | .string, .str _ => true
  | .number, .int _ => true
  | .number, .float _ => true
  | .integer, .int _ => true
  | .boolean, .bool _ => true
  | .null, .null => true
  | _, _ => false

end JsonType

/-- `_validate_runtime_type`; a type it does not know admits everything. -/
def validateRuntimeType (value : Value) (typeText path : String) : Except FieldError Unit :=
  match JsonType.ofText typeText with
  | none => .ok ()
  | some t =>
      if t.admits value then .ok () else .error (.valueError (path ++ ": must be " ++ t.noun))

section Validator

variable (str : Value → String) (enums : Enums)

def checkType (schema : Fields) (value : Value) (path : String) : Except FieldError Unit :=
  match Bindings.get? schema "type" with
  | some (.str typeText) => validateRuntimeType value typeText path
  | _ => .ok ()

def checkEnum (schema : Fields) (value : Value) (path : String) : Except FieldError Unit :=
  match Bindings.get? schema "enum" with
  | some allowed => do
      if ← isMember value allowed then .ok ()
      else .error (.valueError
        (path ++ ": value must be one of: " ++ ", ".intercalate (itemTexts str allowed)))
  | none => .ok ()

def checkEnumRef (schema : Fields) (value : Value) (path : String) : Except FieldError Unit :=
  match Bindings.get? schema "enum_ref" with
  | some (.str enumRef) => do
      let allowed ← enumRefValues enums enumRef
      if allowed.any fun a => pyEq value (.str a) then .ok ()
      else .error (.valueError (path ++ ": value must be one of enum_ref '" ++ enumRef ++ "': " ++
        ", ".intercalate allowed))
  | _ => .ok ()

/-- The type and the vocabulary of one node. -/
def checkNode (schema : Fields) (value : Value) (path : String) : Except FieldError Unit := do
  checkType schema value path
  checkEnum str schema value path
  checkEnumRef enums schema value path

/-- The names under `required`, when it is a list. -/
def requiredOf (schema : Fields) : Option (List Value) :=
  match Bindings.get? schema "required" with
  | some (.array names) => some names
  | _ => none

/-- `name in value` for an object. -/
def hasKey (entries : Fields) (name : Value) : Bool := entries.any fun e => decide (name = .str e.1)

/-- The set of the required names is built before the names are looked up. -/
def checkRequired (schema entries : Fields) (path : String) : Except FieldError Unit :=
  match requiredOf schema with
  | none => .ok ()
  | some names =>
      match names.find? fun n => !hashable n with
      | some n => .error (.typeError ("unhashable type: '" ++ typeName n ++ "'"))
      | none =>
          match names.find? fun n => !hasKey entries n with
          | some n => .error (.valueError
              (path ++ ": missing required property '" ++ str n ++ "'"))
          | none => .ok ()

mutual

/-- `_validate_runtime_node`. -/
def validateRuntimeNode : Value → Value → String → Except FieldError Unit
  | .object schema, value, path => do
      checkNode str enums schema value path
      match value with
      | .object entries => do
          checkRequired str schema entries path
          validateProperties schema ((requiredOf schema).getD []) entries path
      | .array items => validateItems schema items path
      | _ => .ok ()
  | schema, _, _ =>
      .error (.attributeError ("'" ++ typeName schema ++ "' object has no attribute 'get'"))
termination_by structural schema => schema

/-- The loop over `properties`, which is looked up among the entries of a schema. -/
def validateProperties : Fields → List Value → Fields → String → Except FieldError Unit
  | [], _, _, _ => .ok ()
  | (key, .object children) :: rest, required, entries, path =>
      if key = "properties" then validateChildren children required entries path
      else validateProperties rest required entries path
  | (key, _) :: rest, required, entries, path =>
      if key = "properties" then .ok () else validateProperties rest required entries path
termination_by structural schema => schema

def validateChildren : Fields → List Value → Fields → String → Except FieldError Unit
  | [], _, _, _ => .ok ()
  | (name, child) :: rest, required, entries, path => do
      let validated : Except FieldError Unit :=
        match Bindings.get? entries name with
        | none => .ok ()
        | some value =>
            if value = .null ∧ .str name ∉ required then .ok ()
            else validateRuntimeNode child value (path ++ "." ++ name)
      validated
      validateChildren rest required entries path
termination_by structural children => children

/-- The loop over the items of a list, when the schema describes them. -/
def validateItems : Fields → List Value → String → Except FieldError Unit
  | [], _, _ => .ok ()
  | (key, schema) :: rest, items, path =>
      if key = "items" then
        match schema with
        | .object _ => items.zipIdx.forM fun item =>
            validateRuntimeNode schema item.1 (path ++ "[" ++ toString item.2 ++ "]")
        | _ => .ok ()
      else validateItems rest items path
termination_by structural schema => schema

end

end Validator

section Meaning

variable (enums : Enums)

/-- `value in container`, with an error counted as no. -/
def contains (allowed value : Value) : Bool :=
  match isMember value allowed with
  | .ok b => b
  | .error _ => false

def typeAdmits (schema : Fields) (value : Value) : Bool :=
  match Bindings.get? schema "type" with
  | some (.str typeText) => (JsonType.ofText typeText).all fun t => t.admits value
  | _ => true

def enumAdmits (schema : Fields) (value : Value) : Bool :=
  (Bindings.get? schema "enum").all fun allowed => contains allowed value

def enumRefAdmits (schema : Fields) (value : Value) : Bool :=
  match Bindings.get? schema "enum_ref" with
  | some (.str enumRef) =>
      (enums.get? enumRef).any fun allowed => allowed.any fun a => pyEq value (.str a)
  | _ => true

/-- What the keywords of one node say of a value. -/
def nodeAdmits (schema : Fields) (value : Value) : Bool :=
  typeAdmits schema value && enumAdmits schema value && enumRefAdmits enums schema value

def requiredPresent (schema entries : Fields) : Bool :=
  (requiredOf schema).all fun names => names.all fun n => hashable n && hasKey entries n

mutual

/-- The values of a schema. -/
def accepts : Value → Value → Bool
  | .object schema, value =>
      nodeAdmits enums schema value &&
        (match value with
          | .object entries => requiredPresent schema entries &&
              propertiesAccept schema ((requiredOf schema).getD []) entries
          | .array items => itemsAccept schema items
          | _ => true)
  | _, _ => false
termination_by structural schema => schema

def propertiesAccept : Fields → List Value → Fields → Bool
  | [], _, _ => true
  | (key, .object children) :: rest, required, entries =>
      if key = "properties" then childrenAccept children required entries
      else propertiesAccept rest required entries
  | (key, _) :: rest, required, entries =>
      if key = "properties" then true else propertiesAccept rest required entries
termination_by structural schema => schema

def childrenAccept : Fields → List Value → Fields → Bool
  | [], _, _ => true
  | (name, child) :: rest, required, entries =>
      (match Bindings.get? entries name with
        | none => true
        | some value =>
            decide (value = .null ∧ .str name ∉ required) || accepts child value) &&
        childrenAccept rest required entries
termination_by structural children => children

def itemsAccept : Fields → List Value → Bool
  | [], _ => true
  | (key, schema) :: rest, items =>
      if key = "items" then
        match schema with
        | .object _ => items.all fun item => accepts schema item
        | _ => true
      else itemsAccept rest items
termination_by structural schema => schema

end

end Meaning

theorem schemaInduction {P : Value → Prop} (leaf : ∀ v, (∀ entries, v ≠ .object entries) → P v)
    (node : ∀ schema : Fields, (∀ k v, (k, v) ∈ schema → P v) →
      (∀ k children, (k, .object children) ∈ schema → ∀ n v, (n, v) ∈ children → P v) →
      P (.object schema)) (v : Value) : P v := by
  cases v with
  | object schema =>
    apply node schema
    · intro k v hv
      exact schemaInduction leaf node v
    · intro k children hk n v hv
      exact schemaInduction leaf node v
  | _ => exact leaf _ (by simp)
termination_by v
decreasing_by
  · have hsize := List.sizeOf_lt_of_mem hv
    simp_wf
    simp at hsize
    omega
  · have hchild := List.sizeOf_lt_of_mem hv
    have hsize := List.sizeOf_lt_of_mem hk
    simp_wf
    simp at hsize hchild
    omega

section Lookup

variable (str : Value → String) (enums : Enums)

theorem validateProperties_eq (schema : Fields) (required : List Value) (entries : Fields)
    (path : String) : validateProperties str enums schema required entries path =
      match Bindings.get? schema "properties" with
      | some (.object children) => validateChildren str enums children required entries path
      | _ => .ok () := by
  induction schema with
  | nil => rfl
  | cons e rest ih =>
    obtain ⟨key, v⟩ := e
    by_cases hkey : key = "properties"
    · cases v <;> simp [validateProperties, Bindings.get?, hkey]
    · cases v <;> simp [validateProperties, Bindings.get?, hkey, ih]

theorem validateItems_eq (schema : Fields) (items : List Value) (path : String) :
    validateItems str enums schema items path =
      match Bindings.get? schema "items" with
      | some (.object fields) => items.zipIdx.forM fun item =>
        validateRuntimeNode str enums (.object fields) item.1
          (path ++ "[" ++ toString item.2 ++ "]")
      | _ => .ok () := by
  induction schema with
  | nil => rfl
  | cons e rest ih =>
    obtain ⟨key, v⟩ := e
    by_cases hkey : key = "items"
    · cases v <;> simp [validateItems, Bindings.get?, hkey]
    · cases v <;> simp [validateItems, Bindings.get?, hkey, ih]

theorem propertiesAccept_eq (schema : Fields) (required : List Value) (entries : Fields) :
    propertiesAccept enums schema required entries =
      match Bindings.get? schema "properties" with
      | some (.object children) => childrenAccept enums children required entries
      | _ => true := by
  induction schema with
  | nil => rfl
  | cons e rest ih =>
    obtain ⟨key, v⟩ := e
    by_cases hkey : key = "properties"
    · cases v <;> simp [propertiesAccept, Bindings.get?, hkey]
    · cases v <;> simp [propertiesAccept, Bindings.get?, hkey, ih]

theorem itemsAccept_eq (schema : Fields) (items : List Value) :
    itemsAccept enums schema items =
      match Bindings.get? schema "items" with
      | some (.object fields) => items.all fun item => accepts enums (.object fields) item
      | _ => true := by
  induction schema with
  | nil => rfl
  | cons e rest ih =>
    obtain ⟨key, v⟩ := e
    by_cases hkey : key = "items"
    · cases v <;> simp [itemsAccept, Bindings.get?, hkey]
    · cases v <;> simp [itemsAccept, Bindings.get?, hkey, ih]

end Lookup

theorem seq_eq_ok {ε : Type} {x y : Except ε Unit} :
    (do x; y) = .ok () ↔ x = .ok () ∧ y = .ok () := by
  cases x with
  | error e | ok u => simp [bind, Except.bind]

section Decides

variable {str : Value → String} {enums : Enums} {path : String} {schema : Fields} {value : Value}

theorem checkType_eq_ok :
    checkType schema value path = .ok () ↔ typeAdmits schema value = true := by
  unfold checkType typeAdmits
  split
  · rename_i typeText _
    unfold validateRuntimeType
    cases JsonType.ofText typeText with
    | none => simp
    | some t => cases h : t.admits value <;> simp [h]
  · simp

theorem checkEnum_eq_ok :
    checkEnum str schema value path = .ok () ↔ enumAdmits schema value = true := by
  unfold checkEnum enumAdmits
  cases Bindings.get? schema "enum" with
  | none => simp
  | some allowed =>
    simp only [Option.all_some, contains]
    cases isMember value allowed with
    | error e => simp [bind, Except.bind]
    | ok b => cases b <;> simp [bind, Except.bind]

theorem checkEnumRef_eq_ok :
    checkEnumRef enums schema value path = .ok () ↔ enumRefAdmits enums schema value = true := by
  unfold checkEnumRef enumRefAdmits
  split
  · rename_i enumRef _
    unfold enumRefValues
    cases enums.get? enumRef with
    | none => simp [bind, Except.bind]
    | some allowed =>
      cases h : allowed.any fun a => pyEq value (.str a) <;> simp [bind, Except.bind, h]
  · simp

theorem checkNode_eq_ok :
    checkNode str enums schema value path = .ok () ↔ nodeAdmits enums schema value = true := by
  unfold checkNode nodeAdmits
  rw [seq_eq_ok, seq_eq_ok, checkType_eq_ok, checkEnum_eq_ok, checkEnumRef_eq_ok,
    Bool.and_eq_true, Bool.and_eq_true, and_assoc]

theorem checkRequired_eq_ok {entries : Fields} :
    checkRequired str schema entries path = .ok () ↔ requiredPresent schema entries = true := by
  unfold checkRequired requiredPresent
  cases requiredOf schema with
  | none => simp
  | some names =>
    simp only [Option.all_some, List.all_eq_true, Bool.and_eq_true]
    split
    · rename_i n hn
      have hmem := List.mem_of_find?_eq_some hn
      have hbad := List.find?_some hn
      simp only [reduceCtorEq, false_iff]
      intro h
      simp [(h n hmem).1] at hbad
    · rename_i hhash
      split
      · rename_i n hn
        have hmem := List.mem_of_find?_eq_some hn
        have hbad := List.find?_some hn
        simp only [reduceCtorEq, false_iff]
        intro h
        simp [(h n hmem).2] at hbad
      · rename_i hkeys
        rw [List.find?_eq_none] at hhash hkeys
        simp only [true_iff]
        intro n hn
        have h := hhash n hn
        have h' := hkeys n hn
        simp only [Bool.not_eq_true, Bool.not_eq_false'] at h h'
        exact ⟨by simpa using h, by simpa using h'⟩

theorem validateChildren_eq_ok {children : Fields}
    (h : ∀ n v, (n, v) ∈ children → ∀ value path,
      validateRuntimeNode str enums v value path = .ok () ↔ accepts enums v value = true)
    (required : List Value) (entries : Fields) (path : String) :
    validateChildren str enums children required entries path = .ok () ↔
      childrenAccept enums children required entries = true := by
  induction children with
  | nil => simp [validateChildren, childrenAccept]
  | cons e rest ih =>
    obtain ⟨name, child⟩ := e
    have hchild := h name child List.mem_cons_self
    have hrest := ih fun n v hv => h n v (List.mem_cons_of_mem _ hv)
    rw [validateChildren, childrenAccept, seq_eq_ok, Bool.and_eq_true, hrest]
    apply and_congr_left'
    cases Bindings.get? entries name with
    | none => simp
    | some value =>
      by_cases hskip : value = .null ∧ .str name ∉ required
      · simp [hskip]
      · dsimp only
        rw [if_neg hskip, hchild]
        simp [hskip]

theorem validateRuntimeNode_eq_ok (schema : Value) : ∀ value path,
    validateRuntimeNode str enums schema value path = .ok () ↔
      accepts enums schema value = true := by
  induction schema using schemaInduction with
  | leaf v h =>
    intro value path
    cases v with
    | object es => exact absurd rfl (h es)
    | null | bool b | int n | float f | str s | array xs =>
      simp [validateRuntimeNode, accepts]
  | node schema hentries hchildren =>
    intro value path
    cases value with
    | null | bool b | int n | float f | str s =>
      simp [validateRuntimeNode, accepts, seq_eq_ok, checkNode_eq_ok]
    | object entries =>
      rw [validateRuntimeNode, accepts, seq_eq_ok, checkNode_eq_ok, Bool.and_eq_true,
        seq_eq_ok, checkRequired_eq_ok, Bool.and_eq_true, validateProperties_eq,
        propertiesAccept_eq]
      apply and_congr_right'
      apply and_congr_right'
      split
      · rename_i children hget
        exact validateChildren_eq_ok
          (fun n v hv => hchildren _ children (Bindings.mem_of_get? hget) n v hv) _ _ _
      · simp
    | array items =>
      rw [validateRuntimeNode, accepts, seq_eq_ok, checkNode_eq_ok, Bool.and_eq_true,
        validateItems_eq, itemsAccept_eq]
      apply and_congr_right'
      split
      · rename_i fields hget
        have hitem := hentries _ _ (Bindings.mem_of_get? hget)
        have hforM := @forM_eq_ok FieldError (Value × Nat) (fun item =>
          validateRuntimeNode str enums (.object fields) item.1
            (path ++ "[" ++ toString item.2 ++ "]")) items.zipIdx ()
        refine hforM.trans ?_
        rw [List.all_eq_true]
        constructor
        · intro h item hmem
          obtain ⟨i, hi, rfl⟩ := List.mem_iff_getElem.mp hmem
          exact (hitem _ _).mp (h (items[i], i) (List.mk_mem_zipIdx_iff_getElem?.mpr
            (List.getElem?_eq_getElem hi)))
        · intro h p hp
          have hmem : p.1 ∈ items := List.fst_mem_of_mem_zipIdx hp
          exact (hitem _ _).mpr (h p.1 hmem)
      · simp

end Decides

end Cruxible.JsonSchemas

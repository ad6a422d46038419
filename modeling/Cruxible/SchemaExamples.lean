import Cruxible.JsonSchemas
import Cruxible.PythonEquality

/-!
# Examples of nested JSON schemas

The example that `workflow/contracts.py` builds for the schema of a json field, as a case
analysis of its own beside the validator. It is a value of its schema exactly when every node
that it reaches demonstrates one: the first value of a vocabulary is taken whatever its type.
-/
namespace Cruxible.JsonSchemas
open JsonValue PythonDict Fallible PropertyValidation
open Value

section Examples

variable (enums : Enums)

/-- `_declared_enum_values`. -/
def declaredEnumValues (inlineEnum enumRef : Option Value) : Option (List Value) :=
  match inlineEnum with
  | some (.array (v :: vs)) => some (v :: vs)
  | _ =>
      match enumRef with
      | some (.str ref) =>
          if Graph.blank ref then none
          else
            match enums.get? ref with
            | some (v :: vs) => some ((v :: vs).map .str)
            | _ => none
      | _ => none

/-- The first value of a declared vocabulary. -/
def firstDeclared (schema : Fields) : Option Value :=
  (declaredEnumValues enums (Bindings.get? schema "enum")
    (Bindings.get? schema "enum_ref")).bind List.head?

/-- What an example is built from when no vocabulary pins it. -/
inductive Shape where
  | array
  | scalar (placeholder : Value)
  | object
  | unhashable (typeName : String)

/-- The tests of the type, of which the one for numbers hashes it. -/
def shapeOf (schema : Fields) : Shape :=
  match Bindings.get? schema "type" with
  | some (.str "array") => .array
  | some (.str "integer") => .scalar (.int 1)
  | some (.str "number") => .scalar (.float (.finite 1))
  | some (.str "boolean") => .scalar (.bool true)
  | some (.str "null") => .scalar .null
  | some (.str "string") => .scalar (.str "<value>")
  | some (.array _) => .unhashable "list"
  | some (.object _) => .unhashable "dict"
  | _ => .object

/-- What the loop that fills an object puts under a name: the example of a described
property, or any text under a required name that is not described. -/
def exampleAt (required : Bool) (examples : List (String × Except FieldError Value))
    (k : String) : Option (Except FieldError Value) :=
  match Bindings.get? examples k with
  | some example' => some example'
  | none => if required then some (.ok (.str "<value>")) else none

def fillProperty (required : Bool) (examples : List (String × Except FieldError Value))
    (entries : Dict String Value) (name : Value) : Except FieldError (Dict String Value) :=
  match name with
  | .str k =>
      match exampleAt required examples k with
      | some example' => example'.map fun v => entries.set k v
      | none => .ok entries
  | _ => .ok entries

/-- The names under `properties`. -/
def propertyNames (schema : Fields) : List String :=
  match Bindings.get? schema "properties" with
  | some (.object children) => children.map Prod.fst
  | _ => []

mutual

/-- `_json_schema_example`. -/
def jsonSchemaExample : Value → Except FieldError Value
  | .object schema =>
      match firstDeclared enums schema with
      | some v => .ok v
      | none =>
          match shapeOf schema with
          | .array => (itemExample schema).map fun v => .array [v]
          | .scalar placeholder => .ok placeholder
          | .unhashable typeName => .error (.typeError ("unhashable type: '" ++ typeName ++ "'"))
          | .object =>
              let examples := propertyExamples schema
              let names := (requiredOf schema).getD
                ((propertyNames schema).mergeSort.map .str)
              (names.foldlM (fillProperty (requiredOf schema).isSome examples) ∅).map
                fun entries => .object entries.entries
  | _ => .ok (.object [])
termination_by structural schema => schema

/-- The example of the items, which are any object where the schema leaves them open. -/
def itemExample : Fields → Except FieldError Value
  | [] => .ok (.object [])
  | (key, schema) :: rest => if key = "items" then jsonSchemaExample schema else itemExample rest
termination_by structural schema => schema

/-- The examples of the properties, for those that the schema describes. -/
def propertyExamples : Fields → List (String × Except FieldError Value)
  | [] => []
  | (key, .object children) :: rest =>
      if key = "properties" then childExamples children else propertyExamples rest
  | (key, _) :: rest => if key = "properties" then [] else propertyExamples rest
termination_by structural schema => schema

def childExamples : Fields → List (String × Except FieldError Value)
  | [] => []
  | (name, child) :: rest =>
      match child with
      | .object _ => (name, jsonSchemaExample child) :: childExamples rest
      | _ => childExamples rest
termination_by structural children => children

end

end Examples

section Demonstrations

variable (enums : Enums)

/-- Neither a vocabulary nor a reference to one. -/
def noVocabulary (schema : Fields) : Bool :=
  (Bindings.get? schema "enum").isNone &&
    (match Bindings.get? schema "enum_ref" with
      | some (.str _) => false
      | _ => true)

def isText : Value → Bool
  | .str _ => true
  | _ => false

def isObject : Value → Bool
  | .object _ => true
  | _ => false

/-- Null is the first value of the vocabulary, or the placeholder where there is none. -/
def exampleIsNull : Value → Bool
  | .object schema =>
      match firstDeclared enums schema with
      | some v => v = .null
      | none => Bindings.get? schema "type" = some (.str "null")
  | _ => false

theorem exampleIsNull_iff {schema : Value} :
    exampleIsNull enums schema = true ↔ jsonSchemaExample enums schema = .ok .null := by
  cases schema with
  | null | bool b | int n | float f | str s | array xs => simp [exampleIsNull, jsonSchemaExample]
  | object schema =>
    rw [exampleIsNull, jsonSchemaExample]
    cases firstDeclared enums schema with
    | some v => simp
    | none =>
      dsimp only
      rw [decide_eq_true_eq]
      have hshape : Bindings.get? schema "type" = some (.str "null") ↔
          shapeOf schema = .scalar .null := by
        unfold shapeOf
        split <;> simp_all
      rw [hshape]
      cases shapeOf schema with
      | scalar placeholder => simp
      | unhashable typeName => simp
      | array => cases itemExample enums schema <;> simp [Except.map]
      | object =>
        have hfilled : ∀ filled : Except FieldError (Dict String Value),
            (filled.map fun entries => Value.object entries.entries) ≠ .ok .null := by
          intro filled
          cases filled <;> simp [Except.map]
        exact iff_of_false (by simp) (hfilled _)

mutual

/-- At every node that the example reaches: the first value of a vocabulary is a value of the
node, a placeholder is admitted where there is none, and required names are text. A child that
is not required may have null for its example. -/
def demonstrates : Value → Bool
  | .object schema =>
      match firstDeclared enums schema with
      | some v => v.finite && accepts enums (.object schema) v
      | none =>
          match shapeOf schema with
          | .array => noVocabulary schema && itemDemonstrates schema
          | .scalar placeholder => nodeAdmits enums schema placeholder
          | .unhashable _ => false
          | .object => noVocabulary schema &&
              ((requiredOf schema).all fun names => names.all isText) &&
              propertiesDemonstrate (requiredOf schema) schema
  | _ => false
termination_by structural schema => schema

def itemDemonstrates : Fields → Bool
  | [] => true
  | (key, schema) :: rest =>
      if key = "items" then !isObject schema || demonstrates schema else itemDemonstrates rest
termination_by structural schema => schema

def propertiesDemonstrate (required : Option (List Value)) : Fields → Bool
  | [] => true
  | (key, .object children) :: rest =>
      if key = "properties" then childrenDemonstrate required children
      else propertiesDemonstrate required rest
  | (key, _) :: rest => if key = "properties" then true else propertiesDemonstrate required rest
termination_by structural schema => schema

def childrenDemonstrate (required : Option (List Value)) : Fields → Bool
  | [] => true
  | (name, child) :: rest =>
      (match required with
        | some names => decide (.str name ∉ names) || demonstrates child
        | none => !isObject child || exampleIsNull enums child || demonstrates child) &&
        childrenDemonstrate required rest
termination_by structural children => children

end

theorem itemExample_eq (schema : Fields) : itemExample enums schema =
    match Bindings.get? schema "items" with
    | some item => jsonSchemaExample enums item
    | none => .ok (.object []) := by
  induction schema with
  | nil => rfl
  | cons e rest ih =>
    obtain ⟨key, v⟩ := e
    by_cases hkey : key = "items"
    · simp [itemExample, Bindings.get?, hkey]
    · simp [itemExample, Bindings.get?, hkey, ih]

theorem itemDemonstrates_eq (schema : Fields) : itemDemonstrates enums schema =
    match Bindings.get? schema "items" with
    | some item => !isObject item || demonstrates enums item
    | none => true := by
  induction schema with
  | nil => rfl
  | cons e rest ih =>
    obtain ⟨key, v⟩ := e
    by_cases hkey : key = "items"
    · simp [itemDemonstrates, Bindings.get?, hkey]
    · simp [itemDemonstrates, Bindings.get?, hkey, ih]

/-- The entries under `properties`. -/
def childrenOf (schema : Fields) : Fields :=
  match Bindings.get? schema "properties" with
  | some (.object children) => children
  | _ => []

theorem propertyExamples_eq (schema : Fields) :
    propertyExamples enums schema = childExamples enums (childrenOf schema) := by
  unfold childrenOf
  induction schema with
  | nil => rfl
  | cons e rest ih =>
    obtain ⟨key, v⟩ := e
    by_cases hkey : key = "properties"
    · cases v <;> simp [propertyExamples, Bindings.get?, hkey, childExamples]
    · cases v <;> simp [propertyExamples, Bindings.get?, hkey, ih]

theorem propertiesDemonstrate_eq (required : Option (List Value)) (schema : Fields) :
    propertiesDemonstrate enums required schema =
      childrenDemonstrate enums required (childrenOf schema) := by
  unfold childrenOf
  induction schema with
  | nil => rfl
  | cons e rest ih =>
    obtain ⟨key, v⟩ := e
    by_cases hkey : key = "properties"
    · cases v <;> simp [propertiesDemonstrate, Bindings.get?, hkey, childrenDemonstrate]
    · cases v <;> simp [propertiesDemonstrate, Bindings.get?, hkey, ih]

theorem propertiesAccept_children (schema : Fields) (required : List Value) (entries : Fields) :
    propertiesAccept enums schema required entries =
      childrenAccept enums (childrenOf schema) required entries := by
  rw [propertiesAccept_eq]
  unfold childrenOf
  cases Bindings.get? schema "properties" with
  | none => rfl
  | some v => cases v <;> rfl

theorem propertyNames_eq (schema : Fields) :
    propertyNames schema = (childrenOf schema).map Prod.fst := by
  unfold propertyNames childrenOf
  split <;> rfl

variable {examples : List (String × Except FieldError Value)} {required : Bool} {names : List Value}
  {schema : Fields} {d : Dict String Value} {acc : Dict String Value}

theorem fillProperty_eq_ok {mid : Dict String Value} {name : Value}
    (h : fillProperty required examples acc name = .ok mid) :
    (∃ k v, name = .str k ∧ exampleAt required examples k = some (.ok v) ∧ mid = acc.set k v) ∨
    ((∀ k, name = .str k → exampleAt required examples k = none) ∧ mid = acc) := by
  cases name with
  | str k =>
    simp only [fillProperty] at h
    cases he : exampleAt required examples k with
    | none =>
      rw [he] at h
      refine .inr ⟨?_, (Except.ok.inj h).symm⟩
      intro q hq
      rw [← Value.str.inj hq, he]
    | some e =>
      rw [he] at h
      obtain ⟨v, rfl, hmid⟩ := map_eq_ok.mp h
      exact .inl ⟨k, v, rfl, he, hmid.symm⟩
  | null | bool b | int n | float f | array xs | object es =>
    exact .inr ⟨by simp, (Except.ok.inj h).symm⟩

theorem foldlM_fillProperty_isOk
    (h : ∀ k, .str k ∈ names → ∀ e, exampleAt required examples k = some e → ∃ v, e = .ok v)
    (acc : Dict String Value) :
    ∃ entries, names.foldlM (fillProperty required examples) acc = .ok entries := by
  induction names generalizing acc with
  | nil => exact ⟨acc, rfl⟩
  | cons name names ih =>
    have hrest := ih fun k hk => h k (List.mem_cons_of_mem _ hk)
    have hstep : ∃ entries, fillProperty required examples acc name = .ok entries := by
      cases name with
      | str k =>
        simp only [fillProperty]
        cases he : exampleAt required examples k with
        | none => exact ⟨acc, rfl⟩
        | some e =>
          obtain ⟨v, rfl⟩ := h k List.mem_cons_self e he
          exact ⟨_, rfl⟩
      | null | bool b | int n | float f | array xs | object es => exact ⟨acc, rfl⟩
    obtain ⟨entries, hstep⟩ := hstep
    obtain ⟨final, hfinal⟩ := hrest entries
    rw [List.foldlM_cons, hstep]
    exact ⟨final, hfinal⟩

/-- What the loop read, and what it leaves under every key. -/
theorem foldlM_fillProperty {entries : Dict String Value}
    (h : names.foldlM (fillProperty required examples) acc = .ok entries) :
    (∀ k, .str k ∈ names → ∀ e, exampleAt required examples k = some e → ∃ v, e = .ok v) ∧
    ∀ k, entries.get? k = (if .str k ∈ names then
      (exampleAt required examples k).bind Except.toOption else none).or (acc.get? k) := by
  induction names generalizing acc with
  | nil =>
    obtain rfl := Except.ok.inj h
    simp
  | cons name names ih =>
    obtain ⟨mid, hmid, hrest⟩ := foldlM_cons_eq_ok.mp h
    have ⟨hok, hget⟩ := ih hrest
    rcases fillProperty_eq_ok hmid with ⟨q, w, rfl, hq, rfl⟩ | ⟨hnone, rfl⟩
    · constructor
      · intro k hk e he
        rcases List.mem_cons.mp hk with heq | hk
        · rw [Value.str.inj heq, hq] at he
          exact ⟨w, (Option.some.inj he).symm⟩
        · exact hok k hk e he
      · intro k
        rw [hget k, Dict.get?_set]
        by_cases hkq : q = k
        · subst hkq
          by_cases hin : .str q ∈ names
          · simp [hq, hin, Except.toOption]
          · simp [hq, hin, Except.toOption]
        · simp [hkq, Ne.symm hkq]
    · constructor
      · intro k hk e he
        rcases List.mem_cons.mp hk with heq | hk
        · rw [hnone k heq.symm] at he
          cases he
        · exact hok k hk e he
      · intro k
        rw [hget k]
        by_cases hk : name = .str k
        · simp [hnone k hk]
        · simp [Ne.symm hk]

variable {enums}

theorem nodeAdmits_composite {x : Value}
    (hx : (∃ items, x = .array items) ∨ ∃ entries, x = .object entries)
    (hnone : firstDeclared enums schema = none) (htype : typeAdmits schema x = true) :
    nodeAdmits enums schema x = noVocabulary schema := by
  have hundeclared : ∀ v vs, Bindings.get? schema "enum" ≠ some (.array (v :: vs)) := by
    intro v vs henum
    simp [firstDeclared, declaredEnumValues, henum] at hnone
  have henum : enumAdmits schema x = (Bindings.get? schema "enum").isNone := by
    unfold enumAdmits
    cases hget : Bindings.get? schema "enum" with
    | none => rfl
    | some allowed =>
      simp only [Option.all_some, Option.isNone_some, contains]
      cases allowed with
      | array items =>
        cases items with
        | nil => rfl
        | cons v vs => exact absurd hget (hundeclared v vs)
      | object entries | str s => rcases hx with ⟨_, rfl⟩ | ⟨_, rfl⟩ <;> rfl
      | null | bool b | int n | float f => rfl
  have hno : ∀ a, pyEq x (.str a) = false := by
    intro a
    rcases hx with ⟨_, rfl⟩ | ⟨_, rfl⟩ <;> simp [pyEq, rational?]
  unfold nodeAdmits noVocabulary enumRefAdmits
  rw [htype, henum, Bool.true_and]
  congr 1
  cases Bindings.get? schema "enum_ref" with
  | none => rfl
  | some v =>
    cases v with
    | str enumRef =>
      dsimp only
      cases enums.get? enumRef with
      | none => rfl
      | some allowed => simp [hno]
    | null | bool b | int n | float f | array xs | object es => rfl

theorem typeAdmits_array (h : shapeOf schema = .array) (items : List Value) :
    typeAdmits schema (.array items) = true := by
  unfold shapeOf at h
  unfold typeAdmits
  split at h <;> cases h
  rename_i htype
  rw [htype]
  rfl

theorem typeAdmits_object (h : shapeOf schema = .object) (entries : Fields) :
    typeAdmits schema (.object entries) = true := by
  unfold shapeOf at h
  unfold typeAdmits
  split at h <;> cases h
  rename_i harray hinteger hnumber hboolean hnull hstring _ _
  split
  · rename_i typeText htype
    rw [htype] at harray hinteger hnumber hboolean hnull hstring
    unfold JsonType.ofText
    split <;> first | rfl | simp_all
  · rfl

variable {children : Fields}

theorem get?_childExamples (hn : (children.map Prod.fst).Nodup) (k : String) :
    Bindings.get? (childExamples enums children) k = (Bindings.get? children k).bind fun child =>
      if isObject child then some (jsonSchemaExample enums child) else none := by
  induction children with
  | nil => rfl
  | cons e rest ih =>
    obtain ⟨name, child⟩ := e
    rw [List.map_cons, List.nodup_cons] at hn
    have hrest := ih hn.2
    by_cases hk : name = k
    · subst hk
      have habsent : Bindings.get? rest name = none := Bindings.get?_eq_none.mpr hn.1
      rw [habsent] at hrest
      cases child with
      | object fields => simp [childExamples, Bindings.get?, isObject]
      | null | bool b | int n | float f | str s | array xs =>
        simpa [childExamples, Bindings.get?, isObject] using hrest
    · cases child with
      | object fields => simp [childExamples, Bindings.get?, hk, hrest]
      | null | bool b | int n | float f | str s | array xs =>
        simp [childExamples, Bindings.get?, hk, hrest]

theorem childrenAccept_iff {entries : Fields} {required : List Value} :
    childrenAccept enums children required entries = true ↔
      ∀ n c, (n, c) ∈ children → ∀ v, Bindings.get? entries n = some v →
        (v = .null ∧ .str n ∉ required) ∨ accepts enums c v = true := by
  induction children with
  | nil => simp [childrenAccept]
  | cons e rest ih =>
    obtain ⟨name, child⟩ := e
    rw [childrenAccept, Bool.and_eq_true, ih]
    simp only [List.mem_cons, Prod.mk.injEq]
    constructor
    · rintro ⟨hhead, hrest⟩ n c (⟨rfl, rfl⟩ | hmem) v hv
      · rw [hv] at hhead
        simpa using hhead
      · exact hrest n c hmem v hv
    · intro h
      refine ⟨?_, fun n c hmem => h n c (.inr hmem)⟩
      cases hv : Bindings.get? entries name with
      | none => rfl
      | some v => simpa using h name child (.inl ⟨rfl, rfl⟩) v hv

theorem childrenDemonstrate_iff {required : Option (List Value)} :
    childrenDemonstrate enums required children = true ↔ ∀ n c, (n, c) ∈ children →
      match required with
      | some names => .str n ∈ names → demonstrates enums c = true
      | none => isObject c = true → exampleIsNull enums c = true ∨ demonstrates enums c = true := by
  induction children with
  | nil => simp [childrenDemonstrate]
  | cons e rest ih =>
    obtain ⟨name, child⟩ := e
    have hcons : childrenDemonstrate enums required ((name, child) :: rest) =
        ((match required with
          | some names => decide (.str name ∉ names) || demonstrates enums child
          | none => !isObject child || exampleIsNull enums child || demonstrates enums child) &&
          childrenDemonstrate enums required rest) := by
      cases required <;> rfl
    rw [hcons, Bool.and_eq_true, ih]
    simp only [List.mem_cons, Prod.mk.injEq]
    constructor
    · rintro ⟨hhead, hrest⟩ n c (⟨rfl, rfl⟩ | hmem)
      · cases required with
        | some names => simpa [or_iff_not_imp_left] using hhead
        | none => simpa [or_iff_not_imp_left, or_assoc] using hhead
      · exact hrest n c hmem
    · intro h
      refine ⟨?_, fun n c hmem => h n c (.inr hmem)⟩
      have hhead := h name child (.inl ⟨rfl, rfl⟩)
      cases required with
      | some names => simpa [or_iff_not_imp_left] using hhead
      | none => simpa [or_iff_not_imp_left, or_assoc] using hhead

/-- The example of a schema is one of its values. -/
def Demonstrated (enums : Enums) (schema : Value) : Prop :=
  ∃ x, jsonSchemaExample enums schema = .ok x ∧ x.finite = true ∧ accepts enums schema x = true

theorem demonstrated_scalar {placeholder : Value} (hnone : firstDeclared enums schema = none)
    (hshape : shapeOf schema = .scalar placeholder) :
    Demonstrated enums (.object schema) ↔ nodeAdmits enums schema placeholder = true := by
  have hexample : jsonSchemaExample enums (.object schema) = .ok placeholder := by
    rw [jsonSchemaExample, hnone]
    simp only [hshape]
  have hplain : placeholder.finite = true ∧
      accepts enums (.object schema) placeholder = nodeAdmits enums schema placeholder := by
    unfold shapeOf at hshape
    split at hshape <;> cases hshape <;> exact ⟨rfl, by simp [accepts]⟩
  unfold Demonstrated
  rw [hexample]
  constructor
  · rintro ⟨x, hx, _, haccepts⟩
    rw [← Except.ok.inj hx, hplain.2] at haccepts
    exact haccepts
  · intro h
    exact ⟨placeholder, rfl, hplain.1, hplain.2 ▸ h⟩

theorem demonstrated_array (hitem : ∀ item, Bindings.get? schema "items" = some item →
      (demonstrates enums item = true ↔ Demonstrated enums item))
    (hnone : firstDeclared enums schema = none) (hshape : shapeOf schema = .array) :
    Demonstrated enums (.object schema) ↔
      (noVocabulary schema && itemDemonstrates enums schema) = true := by
  have haccepts : ∀ v, accepts enums (.object schema) (.array [v]) =
      (noVocabulary schema && itemsAccept enums schema [v]) := by
    intro v
    rw [accepts, nodeAdmits_composite (.inl ⟨_, rfl⟩) hnone (typeAdmits_array hshape _)]
  have hexample : jsonSchemaExample enums (.object schema) =
      (itemExample enums schema).map fun v => .array [v] := by
    rw [jsonSchemaExample, hnone]
    simp only [hshape]
  have hitems : (∃ v, itemExample enums schema = .ok v ∧ v.finite = true ∧
      itemsAccept enums schema [v] = true) ↔ itemDemonstrates enums schema = true := by
    simp only [itemExample_eq, itemsAccept_eq, itemDemonstrates_eq]
    cases hget : Bindings.get? schema "items" with
    | none => simp [finite, finiteEntries]
    | some item =>
      cases item with
      | object fields =>
        simpa [isObject, Demonstrated] using (hitem _ hget).symm
      | null | bool b | int n | float f | str s | array xs =>
        simp [isObject, jsonSchemaExample, finite, finiteEntries]
  unfold Demonstrated
  rw [hexample, Bool.and_eq_true, ← hitems]
  constructor
  · rintro ⟨x, hx, hfinite, hx'⟩
    obtain ⟨v, hv, rfl⟩ := map_eq_ok.mp hx
    rw [haccepts, Bool.and_eq_true] at hx'
    refine ⟨hx'.1, v, hv, ?_, hx'.2⟩
    simpa [finite, finiteItems] using hfinite
  · rintro ⟨hvocabulary, v, hv, hfinite, hv'⟩
    refine ⟨.array [v], by rw [hv]; rfl, by simp [finite, finiteItems, hfinite], ?_⟩
    rw [haccepts, hvocabulary, hv']
    rfl

theorem exampleAt_child {children : Fields} (hn : (children.map Prod.fst).Nodup) {n : String}
    {c : Value} (hc : (n, c) ∈ children) (required : Bool) :
    exampleAt required (childExamples enums children) n =
      if isObject c then some (jsonSchemaExample enums c)
      else if required then some (.ok (.str "<value>")) else none := by
  unfold exampleAt
  rw [get?_childExamples hn, Bindings.get?_of_mem hn hc]
  cases h : isObject c <;> simp [h]

theorem exampleAt_cases (hn : (children.map Prod.fst).Nodup) {k : String}
    {e : Except FieldError Value} (h : exampleAt required (childExamples enums children) k = some e) :
    (∃ c, (k, c) ∈ children ∧ isObject c = true ∧ e = jsonSchemaExample enums c) ∨
      e = .ok (.str "<value>") := by
  unfold exampleAt at h
  rw [get?_childExamples hn] at h
  cases hget : Bindings.get? children k with
  | none =>
    rw [hget] at h
    dsimp only [Option.bind_none] at h
    split_ifs at h
    exact .inr (Option.some.inj h).symm
  | some c =>
    rw [hget] at h
    dsimp only [Option.bind_some] at h
    by_cases hc : isObject c = true
    · rw [if_pos hc] at h
      exact .inl ⟨c, Bindings.mem_of_get? hget, hc, (Option.some.inj h).symm⟩
    · rw [if_neg hc] at h
      dsimp only at h
      split_ifs at h
      exact .inr (Option.some.inj h).symm

theorem finite_object :
    (Value.object d.entries).finite = true ↔ ∀ k v, d.get? k = some v → v.finite = true := by
  rw [finite, finiteEntries_iff]
  constructor
  · intro h k v hv
    exact h k v (Dict.mem_of_get? hv)
  · intro h k v hv
    exact h k v (Dict.get?_of_mem hv)

theorem isObject_of_demonstrates {c : Value} (h : demonstrates enums c = true) :
    isObject c = true := by
  cases c with
  | object fields => rfl
  | null | bool b | int n | float f | str s | array xs => simp [demonstrates] at h

theorem get?_filled (h : names.foldlM (fillProperty required examples) ∅ = .ok d) (k : String)
    (v : Value) :
    d.get? k = some v ↔ .str k ∈ names ∧ exampleAt required examples k = some (.ok v) := by
  rw [(foldlM_fillProperty h).2 k]
  by_cases hk : .str k ∈ names
  · rw [if_pos hk]
    cases hat : exampleAt required examples k with
    | none => simp [Dict.get?, Bindings.get?, EmptyCollection.emptyCollection, Dict.empty]
    | some e =>
      obtain ⟨w, rfl⟩ := (foldlM_fillProperty h).1 k hk e hat
      simp [hk, Except.toOption]
  · simp [hk, Dict.get?, Bindings.get?, EmptyCollection.emptyCollection, Dict.empty]

theorem filled_keys (hd : names.foldlM (fillProperty true examples) ∅ = .ok d) :
    (names.all fun n => hashable n && hasKey d.entries n) = names.all isText := by
  rw [Bool.eq_iff_iff, List.all_eq_true, List.all_eq_true]
  constructor
  case mp =>
    intro h name hname
    obtain ⟨e, _, he⟩ := List.any_eq_true.mp (Bool.and_eq_true_iff.mp (h name hname)).2
    rw [of_decide_eq_true he]
    rfl
  case mpr =>
    intro h name hname
    have htext := h name hname
    cases name with
    | str k =>
      have hsome : ∃ e, exampleAt true examples k = some e := by
        unfold exampleAt
        split <;> exact ⟨_, rfl⟩
      obtain ⟨e, he⟩ := hsome
      obtain ⟨v, rfl⟩ := (foldlM_fillProperty hd).1 k hname e he
      have hdk := (get?_filled hd k v).mpr ⟨hname, he⟩
      rw [Bool.and_eq_true]
      exact ⟨rfl, List.any_eq_true.mpr ⟨_, Dict.mem_of_get? hdk, by simp⟩⟩
    | null | bool b | int m | float f | array xs | object es => cases htext

section Filling

variable {children : Fields} (hn : (children.map Prod.fst).Nodup)
  (hchild : ∀ n c, (n, c) ∈ children → (demonstrates enums c = true ↔ Demonstrated enums c))

include hn hchild

theorem filled_required :
    (∃ d, names.foldlM (fillProperty true (childExamples enums children)) ∅ = .ok d ∧
      (Value.object d.entries).finite = true ∧
      childrenAccept enums children names d.entries = true) ↔
    childrenDemonstrate enums (some names) children = true := by
  rw [childrenDemonstrate_iff]
  constructor
  case mp =>
    rintro ⟨d, hd, hfinite, haccept⟩ n c hc hname
    rw [childrenAccept_iff] at haccept
    have hat := @exampleAt_child enums children hn _ _ hc true
    cases hobject : isObject c with
    | true =>
      rw [hobject, if_pos rfl] at hat
      obtain ⟨v, hv⟩ := (foldlM_fillProperty hd).1 n hname _ hat
      have hdn := (get?_filled hd n v).mpr ⟨hname, hv ▸ hat⟩
      rw [hchild n c hc]
      rcases haccept n c hc v hdn with ⟨_, hskip⟩ | haccepts
      · exact absurd hname hskip
      · exact ⟨v, hv, finite_object.mp hfinite n v hdn, haccepts⟩
    | false =>
      rw [hobject, if_neg Bool.false_ne_true, if_pos rfl] at hat
      have hdn := (get?_filled hd n _).mpr ⟨hname, hat⟩
      rcases haccept n c hc _ hdn with ⟨hnull, _⟩ | haccepts
      · cases hnull
      · cases c with
        | object fields => cases hobject
        | null | bool b | int m | float f | str s | array xs => simp [accepts] at haccepts
  case mpr =>
    intro hdemonstrate
    have hread : ∀ k, .str k ∈ names → ∀ e,
        exampleAt true (childExamples enums children) k = some e →
          ∃ v, e = .ok v ∧ v.finite = true := by
      intro k hk e he
      rcases exampleAt_cases hn he with ⟨c, hc, _, rfl⟩ | rfl
      · obtain ⟨v, hv, hfinite, _⟩ := (hchild k c hc).mp (hdemonstrate k c hc hk)
        exact ⟨v, hv, hfinite⟩
      · exact ⟨_, rfl, rfl⟩
    obtain ⟨d, hd⟩ := foldlM_fillProperty_isOk
      (fun k hk e he => (hread k hk e he).imp fun v hv => hv.1) ∅
    refine ⟨d, hd, ?_, ?_⟩
    · rw [finite_object]
      intro k v hv
      obtain ⟨hk, hat⟩ := (get?_filled hd k v).mp hv
      obtain ⟨w, hw, hfinite⟩ := hread k hk _ hat
      rwa [Except.ok.inj hw]
    · rw [childrenAccept_iff]
      intro n c hc v hv
      obtain ⟨hk, hat⟩ := (get?_filled hd n v).mp hv
      have hdem := hdemonstrate n c hc hk
      rw [exampleAt_child hn hc, if_pos (isObject_of_demonstrates hdem)] at hat
      obtain ⟨w, hw, _, haccepts⟩ := (hchild n c hc).mp hdem
      rw [hw, Option.some.injEq, Except.ok.injEq] at hat
      exact .inr (hat ▸ haccepts)

theorem filled_optional (hnames : ∀ k, .str k ∈ names ↔ k ∈ children.map Prod.fst) :
    (∃ d, names.foldlM (fillProperty false (childExamples enums children)) ∅ = .ok d ∧
      (Value.object d.entries).finite = true ∧
      childrenAccept enums children [] d.entries = true) ↔
    childrenDemonstrate enums none children = true := by
  have hin : ∀ n c, (n, c) ∈ children → .str n ∈ names := fun n c hc =>
    (hnames n).mpr (List.mem_map_of_mem hc)
  rw [childrenDemonstrate_iff]
  constructor
  case mp =>
    rintro ⟨d, hd, hfinite, haccept⟩ n c hc hobject
    rw [childrenAccept_iff] at haccept
    have hat := @exampleAt_child enums children hn _ _ hc false
    rw [hobject, if_pos rfl] at hat
    obtain ⟨v, hv⟩ := (foldlM_fillProperty hd).1 n (hin n c hc) _ hat
    have hdn := (get?_filled hd n v).mpr ⟨hin n c hc, hv ▸ hat⟩
    rcases haccept n c hc v hdn with ⟨hnull, _⟩ | haccepts
    · left
      rw [exampleIsNull_iff, hv, hnull]
    · right
      rw [hchild n c hc]
      exact ⟨v, hv, finite_object.mp hfinite n v hdn, haccepts⟩
  case mpr =>
    intro hdemonstrate
    have hexample : ∀ n c, (n, c) ∈ children → isObject c = true →
        ∃ v, jsonSchemaExample enums c = .ok v ∧ v.finite = true ∧
          (v = .null ∨ accepts enums c v = true) := by
      intro n c hc hobject
      rcases hdemonstrate n c hc hobject with hnull | hdem
      · exact ⟨.null, (exampleIsNull_iff enums).mp hnull, rfl, .inl rfl⟩
      · obtain ⟨v, hv, hfinite, haccepts⟩ := (hchild n c hc).mp hdem
        exact ⟨v, hv, hfinite, .inr haccepts⟩
    have hread : ∀ k e, exampleAt false (childExamples enums children) k = some e →
        ∃ v, e = .ok v ∧ v.finite = true := by
      intro k e he
      rcases exampleAt_cases hn he with ⟨c, hc, hobject, rfl⟩ | rfl
      · obtain ⟨v, hv, hfinite, _⟩ := hexample k c hc hobject
        exact ⟨v, hv, hfinite⟩
      · exact ⟨_, rfl, rfl⟩
    obtain ⟨d, hd⟩ := foldlM_fillProperty_isOk
      (fun k _ e he => (hread k e he).imp fun v hv => hv.1) ∅
    refine ⟨d, hd, ?_, ?_⟩
    · rw [finite_object]
      intro k v hv
      obtain ⟨w, hw, hfinite⟩ := hread k _ ((get?_filled hd k v).mp hv).2
      rwa [Except.ok.inj hw]
    · rw [childrenAccept_iff]
      intro n c hc v hv
      have hat := ((get?_filled hd n v).mp hv).2
      rw [exampleAt_child hn hc] at hat
      by_cases hobject : isObject c = true
      · obtain ⟨w, hw, _, hvalue⟩ := hexample n c hc hobject
        rw [if_pos hobject, hw, Option.some.injEq, Except.ok.injEq] at hat
        rw [← hat]
        exact hvalue.imp_left fun hnull => ⟨hnull, by simp⟩
      · rw [if_neg hobject, if_neg Bool.false_ne_true] at hat
        cases hat

end Filling

theorem demonstrated_object (hn : ((childrenOf schema).map Prod.fst).Nodup)
    (hchild : ∀ n c, (n, c) ∈ childrenOf schema →
      (demonstrates enums c = true ↔ Demonstrated enums c))
    (hnone : firstDeclared enums schema = none) (hshape : shapeOf schema = .object) :
    Demonstrated enums (.object schema) ↔ (noVocabulary schema &&
      ((requiredOf schema).all fun names => names.all isText) &&
      propertiesDemonstrate enums (requiredOf schema) schema) = true := by
  have haccepts : ∀ d : Dict String Value, accepts enums (.object schema) (.object d.entries) =
      (noVocabulary schema && (requiredPresent schema d.entries &&
        childrenAccept enums (childrenOf schema) ((requiredOf schema).getD []) d.entries)) := by
    intro d
    rw [accepts, nodeAdmits_composite (.inr ⟨_, rfl⟩) hnone (typeAdmits_object hshape _),
      propertiesAccept_children]
  have hexample : jsonSchemaExample enums (.object schema) =
      (((requiredOf schema).getD ((propertyNames schema).mergeSort.map .str)).foldlM
        (fillProperty (requiredOf schema).isSome (childExamples enums (childrenOf schema))) ∅).map
          fun d => .object d.entries := by
    rw [jsonSchemaExample, hnone, ← propertyExamples_eq]
    simp only [hshape]
  rw [propertiesDemonstrate_eq]
  unfold Demonstrated
  rw [hexample]
  cases hrequired : requiredOf schema with
  | some names =>
    simp only [Option.getD_some, Option.isSome_some, Option.all_some, Bool.and_eq_true]
    rw [← filled_required hn hchild]
    constructor
    · rintro ⟨x, hx, hfinite, hx'⟩
      obtain ⟨d, hd, rfl⟩ := map_eq_ok.mp hx
      rw [haccepts, hrequired] at hx'
      unfold requiredPresent at hx'
      rw [hrequired, Option.all_some, filled_keys hd] at hx'
      simp only [Option.getD_some, Bool.and_eq_true] at hx'
      exact ⟨⟨hx'.1, hx'.2.1⟩, d, hd, hfinite, hx'.2.2⟩
    · rintro ⟨⟨hvocabulary, htexts⟩, d, hd, hfinite, haccept⟩
      refine ⟨.object d.entries, by rw [hd]; rfl, hfinite, ?_⟩
      rw [haccepts, hrequired]
      unfold requiredPresent
      rw [hrequired, Option.all_some, filled_keys hd, hvocabulary, htexts,
        Option.getD_some, haccept]
      rfl
  | none =>
    have hnames : ∀ k, .str k ∈ (propertyNames schema).mergeSort.map Value.str ↔
        k ∈ (childrenOf schema).map Prod.fst := by
      intro k
      rw [propertyNames_eq]
      simp
    simp only [Option.getD_none, Option.isSome_none, Option.all_none, Bool.and_true,
      Bool.and_eq_true]
    rw [← filled_optional hn hchild hnames]
    have hpresent : ∀ entries, requiredPresent schema entries = true := by
      intro entries
      unfold requiredPresent
      rw [hrequired]
      rfl
    constructor
    · rintro ⟨x, hx, hfinite, hx'⟩
      obtain ⟨d, hd, rfl⟩ := map_eq_ok.mp hx
      rw [haccepts, hrequired, hpresent] at hx'
      simp only [Option.getD_none, Bool.and_eq_true] at hx'
      exact ⟨hx'.1, d, hd, hfinite, hx'.2.2⟩
    · rintro ⟨hvocabulary, d, hd, hfinite, haccept⟩
      refine ⟨.object d.entries, by rw [hd]; rfl, hfinite, ?_⟩
      rw [haccepts, hrequired, hpresent, hvocabulary, Option.getD_none, haccept]
      rfl

theorem demonstrates_iff (schema : Value) : keyed schema = true →
    (demonstrates enums schema = true ↔ Demonstrated enums schema) := by
  induction schema using schemaInduction with
  | leaf v h =>
    intro _
    cases v with
    | object es => exact absurd rfl (h es)
    | null | bool b | int n | float f | str s | array xs =>
      simp [demonstrates, Demonstrated, accepts]
  | node schema hentries hchildren =>
    intro hkeyed
    rw [keyed, Bool.and_eq_true, decide_eq_true_eq] at hkeyed
    cases hdeclared : firstDeclared enums schema with
    | some v =>
      unfold Demonstrated
      rw [demonstrates, jsonSchemaExample, hdeclared]
      simp
    | none =>
      rw [demonstrates, hdeclared]
      cases hshape : shapeOf schema with
      | scalar placeholder => exact (demonstrated_scalar hdeclared hshape).symm
      | unhashable typeName =>
        unfold Demonstrated
        rw [jsonSchemaExample, hdeclared]
        simp [hshape]
      | array =>
        refine (demonstrated_array ?_ hdeclared hshape).symm
        intro item hitem
        have hmem := Bindings.mem_of_get? hitem
        exact hentries _ _ hmem (keyedEntries_mem hkeyed.2 hmem)
      | object =>
        have hproperties : childrenOf schema = [] ∨
            ("properties", .object (childrenOf schema)) ∈ schema := by
          unfold childrenOf
          split
          · rename_i children hget
            exact .inr (Bindings.mem_of_get? hget)
          · exact .inl rfl
        rcases hproperties with hnil | hmem
        · refine (demonstrated_object ?_ ?_ hdeclared hshape).symm
          · simp [hnil]
          · simp [hnil]
        · have hk := keyedEntries_mem hkeyed.2 hmem
          rw [keyed, Bool.and_eq_true, decide_eq_true_eq] at hk
          refine (demonstrated_object hk.1 ?_ hdeclared hshape).symm
          intro n c hc
          exact hchildren _ _ hmem n c hc (keyedEntries_mem hk.2 hc)

end Demonstrations

end Cruxible.JsonSchemas

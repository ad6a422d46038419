import Cruxible.Fallible
import Cruxible.ProcedureSchemas

/-!
# Stored procedure definitions

`procedure/store.py`: a definition is stored as the JSON text of its dump without
nulls and validated again when a row is read. The text of a JSON document is read
back as that document, so a row holds the document itself.
-/

namespace Cruxible.ProcedureRecords

open Fallible
open ModelSchemas ModelClasses SchemaFields ProcedureSchemas

variable {γ : Type}

/-- The schema environment of the store, which dumps in JSON mode, and the digest of
a dumped definition, `sha256` of its canonical text. -/
structure StoreEnv where
  env : Env
  json : env.mode = .json
  digest : Doc → String

/-- A procedure; `governance` stands for the columns beside the definition. -/
structure ProcedureRecord (γ : Type) where
  procedureId : String
  definition : Doc
  definitionDigest : String
  supersedes : Option String
  governance : γ

structure Row (γ : Type) where
  procedureId : String
  definitionJson : Doc
  definitionDigest : String
  supersedes : Option String
  governance : γ

inductive StoreError where
  | digestMismatch (stored computed : String)
  | integrity (procedureId : String)
  | invalidDefinition (procedureId : String)

/-- `model_dump(mode="json", by_alias=True, exclude_none=True)`. -/
def dumpDefinition (e : StoreEnv) (definition : Doc) : Doc :=
  (procedureDefinition e.env).schema.dump definition

def computeProcedureDefinitionDigest (e : StoreEnv) (definition : Doc) : String :=
  e.digest (dumpDefinition e definition)

def rowOf (e : StoreEnv) (p : ProcedureRecord γ) : Row γ where
  procedureId := p.procedureId
  definitionJson := dumpDefinition e p.definition
  definitionDigest := p.definitionDigest
  supersedes := p.supersedes
  governance := p.governance

/-- The key and the reference of a row that is inserted. -/
def insertable (store : List (Row γ)) (p : ProcedureRecord γ) : Bool :=
  !(store.any fun r => r.procedureId == p.procedureId) &&
    p.supersedes.all fun s => s == p.procedureId || store.any fun r => r.procedureId == s

def saveProcedure (e : StoreEnv) (store : List (Row γ)) (p : ProcedureRecord γ) :
    Except StoreError (List (Row γ)) := do
  let actual := computeProcedureDefinitionDigest e p.definition
  refuseIf (p.definitionDigest ≠ actual) (.digestMismatch p.definitionDigest actual)
  refuseIf (insertable store p = false) (.integrity p.procedureId)
  pure (store ++ [rowOf e p])

/-- `_row_to_procedure`. -/
def rowToProcedure (e : StoreEnv) (r : Row γ) : Except StoreError (ProcedureRecord γ) :=
  match (procedureDefinition e.env).schema.validate r.definitionJson with
  | none => .error (.invalidDefinition r.procedureId)
  | some definition => .ok {
      procedureId := r.procedureId
      definition := definition
      definitionDigest := r.definitionDigest
      supersedes := r.supersedes
      governance := r.governance }

def getProcedure (e : StoreEnv) (store : List (Row γ)) (procedureId : String) :
    Except StoreError (Option (ProcedureRecord γ)) :=
  match store.find? fun r => r.procedureId == procedureId with
  | none => .ok none
  | some r => (rowToProcedure e r).map some

/-- The records of the rows that a listing selected. -/
def listProcedures (e : StoreEnv) (selected : List (Row γ)) :
    Except StoreError (List (ProcedureRecord γ)) :=
  selected.mapM (rowToProcedure e)

/-- The check that the lifecycle verbs make before they trust a definition. -/
def definitionDigestChanged (e : StoreEnv) (p : ProcedureRecord γ) : Bool :=
  computeProcedureDefinitionDigest e p.definition != p.definitionDigest

/-- A definition whose nulls all stand for null defaults, whose free values are JSON
values, and in which no contract field was written with the `required` alias. -/
def Storable (env : Env) (definition : Doc) : Prop :=
  (procedureDefinition env).schema.survives definition = true ∧
    (procedureDefinition env).schema.bare definition = definition

variable {e : StoreEnv} {p : ProcedureRecord γ}

theorem rowToProcedure_rowOf {q : ProcedureRecord γ} :
    rowToProcedure e (rowOf e p) = .ok q ↔
      (procedureDefinition e.env).schema.validate (dumpDefinition e p.definition) =
          some q.definition ∧
        q = { p with definition := q.definition } := by
  unfold rowToProcedure rowOf
  cases h : (procedureDefinition e.env).schema.validate (dumpDefinition e p.definition) with
  | none => simp
  | some d =>
    simp only [Except.ok.injEq, Option.some.injEq]
    constructor
    · rintro rfl
      exact ⟨rfl, rfl⟩
    · rintro ⟨hd, hq⟩
      rw [hq, hd]

variable {store : List (Row γ)}

theorem find_saved (e : StoreEnv) (h : insertable store p = true) :
    (store ++ [rowOf e p]).find? (fun r => r.procedureId == p.procedureId) = some (rowOf e p) := by
  simp only [insertable, Bool.and_eq_true, Bool.not_eq_true', List.any_eq_false] at h
  have hnone : store.find? (fun r => r.procedureId == p.procedureId) = none :=
    List.find?_eq_none.mpr fun r hr => h.1 r hr
  simp [List.find?_append, hnone, rowOf]

theorem saveProcedure_eq_ok {store' : List (Row γ)}
    (hd : p.definitionDigest = computeProcedureDefinitionDigest e p.definition)
    (hi : insertable store p = true) :
    saveProcedure e store p = .ok store' ↔ store' = store ++ [rowOf e p] := by
  unfold saveProcedure
  simp only [hd, ne_eq, not_true_eq_false, hi, Bool.true_eq_false]
  constructor
  · intro h
    cases h
    rfl
  · rintro rfl
    rfl

theorem listProcedures_ok {rows : List (Row γ)} (h : ∀ r ∈ rows, (rowToProcedure e r).isOk = true) :
    (listProcedures e rows).isOk = true := by
  unfold listProcedures
  induction rows with
  | nil => rfl
  | cons r rs ih =>
    have hr := h r (by simp)
    have hrs := ih fun r' hr' => h r' (by simp [hr'])
    cases hq : rowToProcedure e r with
    | error err => rw [hq] at hr; cases hr
    | ok q =>
      cases hqs : rs.mapM (rowToProcedure e) with
      | error err => rw [hqs] at hrs; cases hrs
      | ok qs =>
        rw [List.mapM_cons, hq, hqs]
        rfl

/-- The record comes back with its definition, passes the digest check, and leaves
every listing readable that was readable without it. -/
def ComesBack (e : StoreEnv) (store : List (Row γ)) (p : ProcedureRecord γ) : Prop :=
  ∃ store' q, saveProcedure e store p = .ok store' ∧
    getProcedure e store' p.procedureId = .ok (some q) ∧ q.definition = p.definition ∧
    definitionDigestChanged e q = false ∧
    ∀ selected, (∀ r ∈ selected, r ∈ store') →
      (∀ r ∈ selected, r ∈ store → (rowToProcedure e r).isOk = true) →
      (listProcedures e selected).isOk = true

/-- A stored definition comes back exactly when it is storable. -/
theorem definition_comes_back_iff (e : StoreEnv) (store : List (Row γ)) (p : ProcedureRecord γ)
    {raw : Doc} (hvalid : (procedureDefinition e.env).schema.validate raw = some p.definition)
    (hdigest : p.definitionDigest = computeProcedureDefinitionDigest e p.definition)
    (hinsert : insertable store p = true) : ComesBack e store p ↔ Storable e.env p.definition := by
  have hsame := (procedureDefinition e.env).schema.same_iff hvalid
  constructor
  · rintro ⟨store', q, hsave, hget, hq, _⟩
    rw [saveProcedure_eq_ok hdigest hinsert] at hsave
    subst hsave
    rw [getProcedure, find_saved e hinsert] at hget
    cases hrow : rowToProcedure e (rowOf e p) with
    | error err => simp [hrow, Except.map] at hget
    | ok q' =>
      simp only [hrow, Except.map, Except.ok.injEq, Option.some.injEq] at hget
      subst hget
      have hback := (rowToProcedure_rowOf.mp hrow).1
      rw [hq] at hback
      exact hsame.mp hback
  · intro hstorable
    have hback := hsame.mpr hstorable
    have hrow : rowToProcedure e (rowOf e p) = .ok p := rowToProcedure_rowOf.mpr ⟨hback, rfl⟩
    refine ⟨store ++ [rowOf e p], p, (saveProcedure_eq_ok hdigest hinsert).mpr rfl, ?_, rfl, ?_, ?_⟩
    · rw [getProcedure, find_saved e hinsert]
      simp [hrow, Except.map]
    · simp [definitionDigestChanged, hdigest]
    · intro selected hsub hold
      refine listProcedures_ok fun r hr => ?_
      cases List.mem_append.mp (hsub r hr) with
      | inl hmem => exact hold r hr hmem
      | inr hmem =>
        rw [List.mem_singleton.mp hmem, hrow]
        rfl

/-- A procedure of one assertion `left == 1`. -/
def guardDefinition (left : Doc) : Doc :=
  .obj
    [("name", str "check"),
      ("steps", .list
        [.obj
          [("id", str "guard"),
            ("assert", .obj
              [("left", left), ("op", str "eq"), ("right", int 1), ("message", str "no value")])]]),
      ("returns", str "guard"),
      ("precondition", .obj []),
      ("budget", .obj
        [("wall_clock_s", .atom (.float (.finite 5))), ("max_provider_calls", int 0)])]

def strictStore : StoreEnv where
  env := .strict .json
  json := rfl
  digest _ := "sha256:0"

def guardRecord (left : Doc) : ProcedureRecord Unit where
  procedureId := "PRC-1"
  definition := ((procedureDefinition strictStore.env).schema.validate (guardDefinition left)).getD
    .null
  definitionDigest := "sha256:0"
  supersedes := none
  governance := ()

theorem guardRecord_valid {left : Doc}
    (h : ((procedureDefinition strictStore.env).schema.validate (guardDefinition left)).isSome) :
    (procedureDefinition strictStore.env).schema.validate (guardDefinition left) =
      some (guardRecord left).definition := by
  have ⟨d, hd⟩ := Option.isSome_iff_exists.mp h
  rw [guardRecord, hd]
  rfl

theorem workflow_guard_comes_back : ComesBack strictStore [] (guardRecord (str "$input.status")) :=
  (definition_comes_back_iff strictStore [] (guardRecord (str "$input.status"))
    (guardRecord_valid (by decide +kernel)) rfl rfl).mpr ⟨by decide +kernel, by rfl⟩

/-- An assertion on an explicit null is accepted and saved; afterwards neither its
own row nor a listing that contains it can be read. -/
theorem null_guard_is_lost :
    (procedureDefinition strictStore.env).schema.validate (guardDefinition .null) =
        some (guardRecord .null).definition ∧
      (guardRecord .null).definitionDigest =
        computeProcedureDefinitionDigest strictStore (guardRecord .null).definition ∧
      insertable [] (guardRecord .null) = true ∧
      ¬ComesBack strictStore [] (guardRecord .null) ∧
      (listProcedures strictStore [rowOf strictStore (guardRecord .null)]).isOk = false := by
  have hvalid := guardRecord_valid (show ((procedureDefinition strictStore.env).schema.validate
    (guardDefinition .null)).isSome by decide +kernel)
  refine ⟨hvalid, rfl, rfl, ?_, by decide +kernel⟩
  rintro ⟨store', q, hsave, hget, _⟩
  rw [saveProcedure_eq_ok rfl rfl] at hsave
  subst hsave
  have hfail : (getProcedure strictStore ([] ++ [rowOf strictStore (guardRecord .null)])
      "PRC-1").isOk = false := by decide +kernel
  have hget' : getProcedure strictStore ([] ++ [rowOf strictStore (guardRecord .null)]) "PRC-1" =
      .ok (some q) := hget
  rw [hget'] at hfail
  cases hfail

end Cruxible.ProcedureRecords

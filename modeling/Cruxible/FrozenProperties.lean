import Cruxible.CanonicalJson
import Cruxible.UniqueIdentities

/-!
# Frozen properties

A guard freezes a property of the entities of a type, always or while the stored
entity matches a clause. It compares the stored value with the one that the write
would leave, and refuses the write when they differ. The comparison is Python's
`==`, which does not tell `1`, `1.0` and `true` apart; and a guard is asked by the
type that a member names, which is the record's own where node ids are read back
unambiguously. Up to these two, what is frozen stays as it was.
-/
namespace Cruxible.FrozenProperties
open JsonValue PythonDict AssertionState AppendOnly Fallible Cruxible.Graph PropertyValidation
open GraphOperations GroupDrift DirectWrites FreeWrites WorkflowApply EntityChanges EdgeChanges
open MutationReceipts UniqueIdentities Runs

/-- `MutationGuardSchema` with a `FrozenPropertyGuardCondition`. -/
structure FrozenPropertyGuard where
  name : String
  entityType : String
  property : String
  message : Option String := none
  whileState : Option (List (String × Value)) := none

/-- A configured guard. The other conditions are arbitrary evaluators. -/
inductive MutationGuard where
  | frozen (guard : FrozenPropertyGuard)
  | other (outcome : EntityGraph → EntityGraph → ValidatedEntity → Option EntityInstance →
      EntityInstance → Except CoreError (Option String))

structure GuardedContext where
  w : WriteContext
  mutationGuards : List MutationGuard := []
  relationshipGuards : EntityGraph → List ValidatedRelationship → List String := fun _ _ => []
  repr : Value → String

/-- `_FrozenClauseNormalizationError`, or another exception of the normalizer. -/
inductive ClauseError where
  | normalization (key : String) (value : Value) (reason : String)
  | abort (error : CoreError)

/-- One clause value, normalized by the schema of its property. -/
def normalizeClause (c : GuardedContext) (entityType : String) (clause : String × Value) :
    Except ClauseError (String × Value) :=
  match (c.w.config.entityTypes.get? entityType).bind (fun s => s.properties.get? clause.1) with
  | none => .ok clause
  | some schema =>
      match normalizeValue c.w.rt clause.2 schema c.w.config with
      | .ok v => .ok (clause.1, v)
      | .error (.valueError m) => .error (.normalization clause.1 clause.2 m)
      | .error (.overflowError m) => .error (.abort (.overflow m))
      | .error (.attributeError m) => .error (.abort (.attribute m))

/-- `_frozen_while_state_matches`: every clause is normalized before any is
compared. -/
def frozenWhileStateMatches (c : GuardedContext) (entityType : String)
    (whileState : List (String × Value)) (current : EntityInstance) : Except ClauseError Bool := do
  let normalized ← whileState.mapM (normalizeClause c entityType)
  return normalized.all fun clause =>
    match current.properties.get? clause.1 with
    | none => false
    | some stored => stored.pyEq clause.2

/-- Python `==` of two property readings, with a marker for the absent one. -/
def sameReading : Option Value → Option Value → Bool
  | none, none => true
  | some a, some b => a.pyEq b
  | _, _ => false

/-- How a refusal begins. -/
def rejection (guard : FrozenPropertyGuard) (e : EntityInstance) : String :=
  "Mutation guard '" ++ guard.name ++ "' rejected write " ++ e.entityType ++ ":" ++ e.entityId ++
    " " ++ guard.property

/-- `_frozen_guard_error_message`. -/
def frozenGuardErrorMessage (c : GuardedContext) (guard : FrozenPropertyGuard) (e : EntityInstance)
    (newValue : Option Value) : String :=
  let scope := match guard.whileState with
    | none => "immutable after create"
    | some clauses => "frozen while stored state matches " ++
        ", ".intercalate (clauses.map fun p => p.1 ++ "=" ++ c.repr p.2)
  let message := (guard.message.filter (· ≠ "")).getD "property is frozen"
  let renderedNew := (newValue.map c.repr).getD "<unset>"
  rejection guard e ++ "=" ++ renderedNew ++ " (" ++ scope ++ "): " ++ message

/-- `_frozen_property_guard_outcome`: whether the guard was evaluated, and its
refusal. -/
def frozenPropertyGuardOutcome (c : GuardedContext) (guard : FrozenPropertyGuard)
    (validated : ValidatedEntity) (current : Option EntityInstance) (proposed : EntityInstance) :
    Except CoreError (Bool × Option String) :=
  if guard.entityType ≠ validated.entity.entityType then .ok (false, none)
  else if validated.isUpdate = false then .ok (false, none)
  else match current with
    | none => .ok (true, some (rejection guard proposed ++
        ": stored pre-write state is unavailable (fail-closed)"))
    | some stored =>
        let oldValue := stored.properties.get? guard.property
        let newValue := proposed.properties.get? guard.property
        if sameReading oldValue newValue then .ok (true, none)
        else match guard.whileState with
          | none => .ok (true, some (frozenGuardErrorMessage c guard proposed newValue))
          | some clauses =>
              match frozenWhileStateMatches c guard.entityType clauses stored with
              | .error (.normalization key value reason) =>
                  .ok (true, some (rejection guard proposed ++ ": 'while' clause " ++ key ++ "=" ++
                    c.repr value ++ " does not normalize against the property schema (" ++ reason ++
                    "); the freeze cannot be evaluated (fail-closed)"))
              | .error (.abort e) => .error e
              | .ok false => .ok (true, none)
              | .ok true => .ok (true, some (frozenGuardErrorMessage c guard proposed newValue))

/-- One guard against one member; refusals are collected. -/
def evaluateGuard (c : GuardedContext) (current proposedGraph : EntityGraph)
    (v : ValidatedEntity) (proposed : EntityInstance) (refusals : List String)
    (guard : MutationGuard) : Except CoreError (List String) :=
  let stored := current.getEntity v.entity.entityType v.entity.entityId
  match guard with
  | .frozen guard => do
      let (_, refusal) ← frozenPropertyGuardOutcome c guard v stored proposed
      return refusals ++ refusal.toList
  | .other outcome => do
      let refusal ← outcome current proposedGraph v stored proposed
      return refusals ++ refusal.toList

/-- All guards against one member. -/
def evaluateMember (c : GuardedContext) (current proposed : EntityGraph) (refusals : List String)
    (v : ValidatedEntity) : Except CoreError (List String) :=
  match proposed.getEntity v.entity.entityType v.entity.entityId with
  | none => .ok refusals
  | some d => c.mutationGuards.foldlM (evaluateGuard c current proposed v d) refusals

/-- `evaluate_mutation_guards`: the refusal messages. -/
def evaluateMutationGuards (c : GuardedContext) (current proposed : EntityGraph)
    (entities : List ValidatedEntity) : Except CoreError (List String) :=
  entities.foldlM (evaluateMember c current proposed) []

/-- The guards as the direct writes consult them: a validation error of an
evaluation is reported like a refusal, and any other exception refuses the call. -/
def directGuards (c : GuardedContext) : Guards where
  entity := fun current proposed entities =>
    match evaluateMutationGuards c current proposed entities with
    | .ok refusals => refusals
    | .error (.dataValidation m errors) => m :: errors
    | .error _ => ["mutation guard evaluation was aborted"]
  relationship := c.relationshipGuards

/-- `_enforce_entity_mutation_guards`: the members are applied to a copy first. -/
def enforceEntityMutationGuards (c : GuardedContext) (stepId : String) (g : EntityGraph)
    (validated : List ValidatedEntity) : Except CoreError Unit :=
  if c.mutationGuards.isEmpty || validated.isEmpty then .ok ()
  else do
    let proposed ← validated.foldlM (fun k v => do
      let (h, _) ← applyEntity c.w k v "workflow_apply" false
      return h) g
    let refusals ← evaluateMutationGuards c g proposed validated
    refuseIf (refusals ≠ []) (.queryExecution ("Workflow step '" ++ stepId ++
      "' mutation guard validation failed: " ++ "; ".intercalate refusals))

def workflowGuards (c : GuardedContext) (stepId : String) : WorkflowGuards where
  entity := enforceEntityMutationGuards c stepId
  relationship := fun g relationships =>
    requireNoErrors "Mutation guard" (c.relationshipGuards g relationships)

/-- The entity writes that the guards watch. A set is built with one member for
each entity id. -/
inductive GuardedWrite where
  | addEntities (entities : List EntityInstance)
  | batchDirectWrite (source sourceRef : String) (entities : List EntityInstance)
      (requests : List RelationshipRequest) (call : Call)
  | applyEntities (stepId : String) (call : Call) (set : EntitySet)
      (distinct : (set.entities.map (·.entityId)).Nodup)

namespace GuardedWrite

def entities : GuardedWrite → List EntityInstance
  | .addEntities entities => entities
  | .batchDirectWrite _ _ entities _ _ => entities
  | .applyEntities _ _ set _ => set.entities

/-- The graph that an accepted write persists. -/
def apply (c : GuardedContext) (g : EntityGraph) : GuardedWrite → Except CoreError EntityGraph
  | .addEntities entities => do
      let b ← serviceAddEntities c.w (directGuards c) g entities
      return b.graph
  | .batchDirectWrite source sourceRef entities requests call => do
      let (_, s) ← serviceBatchDirectWrite c.w (directGuards c) g source sourceRef entities requests
        call
      return s.graph
  | .applyEntities stepId call set _ => do
      let (h, _) ← applyEntitySet c.w (workflowGuards c stepId) stepId call g set
      return h

end GuardedWrite

/-- The guard freezes its property on the stored record. -/
def Frozen (c : GuardedContext) (guard : FrozenPropertyGuard) (d : EntityInstance) : Prop :=
  d.entityType = guard.entityType ∧ ∀ clauses ∈ guard.whileState,
    (frozenWhileStateMatches c guard.entityType clauses d).toOption = some true

instance (c : GuardedContext) (guard : FrozenPropertyGuard) (d : EntityInstance) :
    Decidable (Frozen c guard d) :=
  inferInstanceAs (Decidable (_ ∧ ∀ clauses ∈ guard.whileState, _))

/-- Two readings are one JSON value, up to the order of object keys. -/
def SameValue (a b : Option Value) : Prop := a.map Value.canonical = b.map Value.canonical

instance (a b : Option Value) : Decidable (SameValue a b) :=
  inferInstanceAs (Decidable (_ = _))

/-- The configured freezes. -/
def GuardedContext.frozenGuards (c : GuardedContext) : List FrozenPropertyGuard :=
  c.mutationGuards.filterMap fun
    | .frozen guard => some guard
    | .other _ => none

/-- Every record keeps the value of each property that is frozen on it. -/
def KeepsFrozen (c : GuardedContext) (g h : EntityGraph) : Prop :=
  ∀ guard ∈ c.frozenGuards, ∀ n d, g.nodes.get? n = some d → Frozen c guard d →
    ∃ d', h.nodes.get? n = some d' ∧
      SameValue (d.properties.get? guard.property) (d'.properties.get? guard.property)

/-- The normal form of the value that a member supplies for a declared property. -/
def suppliedValue (w : WriteContext) (e : EntityInstance) (property : String) : Option Value :=
  ((w.config.entityTypes.get? e.entityType).bind fun s => s.properties.get? property).bind
    fun schema => (e.properties.get? property).bind
      fun raw => (normalizeValue w.rt raw schema w.config).toOption

/-- Members address records under their own types, and none supplies for a frozen
property a value that equals the stored one in Python only. -/
structure Plain (c : GuardedContext) (g : EntityGraph) (entities : List EntityInstance) : Prop where
  unambiguous : Unambiguous g entities
  strict : ∀ guard ∈ c.frozenGuards, ∀ e ∈ entities, ∀ d ∈ g.nodes.get? e.nodeId,
    Frozen c guard d → ∀ x ∈ suppliedValue c.w e guard.property,
    ∀ old ∈ d.properties.get? guard.property, old.pyEq x = true → old.canonical = x.canonical

instance (c : GuardedContext) (g : EntityGraph) (entities : List EntityInstance) :
    Decidable (Plain c g entities) :=
  decidable_of_iff (Unambiguous g entities ∧ ∀ guard ∈ c.frozenGuards, ∀ e ∈ entities,
      ∀ d ∈ g.nodes.get? e.nodeId, Frozen c guard d → ∀ x ∈ suppliedValue c.w e guard.property,
      ∀ old ∈ d.properties.get? guard.property, old.pyEq x = true → old.canonical = x.canonical)
    ⟨fun h => ⟨h.1, h.2⟩, fun h => ⟨h.unambiguous, h.strict⟩⟩

section Evaluation
variable {c : GuardedContext} {a b : List String} {current : EntityGraph} {v : ValidatedEntity}

theorem foldlM_collects {ε ι : Type} {f : List String → ι → Except ε (List String)}
    (hcollects : ∀ a x b, f a x = .ok b → ∃ l, b = a ++ l) {xs : List ι} (h : xs.foldlM f a = .ok b)
    : (∃ l, b = a ++ l) ∧ (b = [] → ∀ x ∈ xs, f [] x = .ok []) := by
  induction xs generalizing a with
  | nil =>
    rw [List.foldlM_nil, pure_eq_ok] at h
    exact ⟨⟨[], by rw [h, List.append_nil]⟩, fun _ x hx => by cases hx⟩
  | cons x xs ih =>
    have ⟨mid, hmid, hrest⟩ := foldlM_cons_eq_ok.mp h
    have ⟨l, hl⟩ := hcollects a x mid hmid
    have ⟨⟨l', hl'⟩, hnil⟩ := ih hrest
    constructor
    case left => exact ⟨l ++ l', by rw [hl', hl, List.append_assoc]⟩
    case right =>
      intro hb y hy
      rw [hb] at hl'
      have hmidnil : mid = [] := (List.append_eq_nil_iff.mp hl'.symm).1
      rw [hmidnil] at hl hmid
      have ha : a = [] := (List.append_eq_nil_iff.mp hl.symm).1
      rcases List.mem_cons.mp hy with heq | hmem
      · rw [heq, ← ha]
        exact ha ▸ hmid
      · exact hnil hb y hmem

variable {proposed : EntityInstance} {guard : FrozenPropertyGuard}

theorem evaluateGuard_collects {proposedGraph : EntityGraph} {guard : MutationGuard}
    (h : evaluateGuard c current proposedGraph v proposed a guard = .ok b) : ∃ l, b = a ++ l := by
  unfold evaluateGuard at h
  cases guard with
  | frozen guard =>
    have ⟨⟨_, refusal⟩, _, h⟩ := bind_eq_ok.mp h
    exact ⟨refusal.toList, (pure_eq_ok.mp h).symm⟩
  | other outcome =>
    have ⟨refusal, _, h⟩ := bind_eq_ok.mp h
    exact ⟨refusal.toList, (pure_eq_ok.mp h).symm⟩

theorem evaluateMember_collects {proposed : EntityGraph}
    (h : evaluateMember c current proposed a v = .ok b) : ∃ l, b = a ++ l := by
  unfold evaluateMember at h
  split at h
  · rw [Except.ok.injEq] at h
    exact ⟨[], by rw [h, List.append_nil]⟩
  · exact (foldlM_collects (fun _ _ _ => evaluateGuard_collects) h).1

/-- No freeze refused any member. -/
theorem evaluate_unrefused {proposed : EntityGraph} {entities : List ValidatedEntity}
    (h : evaluateMutationGuards c current proposed entities = .ok []) (hv : v ∈ entities)
    {d : EntityInstance} (hd : proposed.getEntity v.entity.entityType v.entity.entityId = some d)
    (hguard : guard ∈ c.frozenGuards) :
    ∃ evaluated, frozenPropertyGuardOutcome c guard v
      (current.getEntity v.entity.entityType v.entity.entityId) d = .ok (evaluated, none) := by
  have hmember := (foldlM_collects (fun _ _ _ => evaluateMember_collects) h).2 rfl v hv
  unfold evaluateMember at hmember
  rw [hd] at hmember
  have ⟨configured, hconfigured, hfrozen⟩ := List.mem_filterMap.mp hguard
  have hone := (foldlM_collects (fun _ _ _ => evaluateGuard_collects) hmember).2 rfl configured
    hconfigured
  cases configured with
  | other outcome => cases hfrozen
  | frozen guard' =>
    rw [← Option.some.inj hfrozen]
    unfold evaluateGuard at hone
    have ⟨⟨evaluated, refusal⟩, houtcome, hone⟩ := bind_eq_ok.mp hone
    have hnone : refusal = none := by
      have hlist := pure_eq_ok.mp hone
      cases refusal with
      | none => rfl
      | some m => cases hlist
    rw [hnone] at houtcome
    exact ⟨evaluated, houtcome⟩

theorem outcome_unrefused {stored : EntityInstance} {evaluated : Bool}
    (h : frozenPropertyGuardOutcome c guard v (some stored) proposed = .ok (evaluated, none))
    (htype : stored.entityType = v.entity.entityType) (hupdate : v.isUpdate = true)
    (hfrozen : Frozen c guard stored) :
    sameReading (stored.properties.get? guard.property)
      (proposed.properties.get? guard.property) = true := by
  have ⟨hguard, hclauses⟩ := hfrozen
  unfold frozenPropertyGuardOutcome at h
  rw [if_neg (not_not.mpr (hguard.symm.trans htype)), hupdate] at h
  simp only [Bool.true_eq_false, if_false] at h
  split_ifs at h with hsame
  · exact hsame
  · split at h
    · cases h
    · rename_i clauses hwhile
      have hmatches := hclauses clauses hwhile
      split at h
      · cases h
      · cases h
      · rename_i hfalse
        rw [hfalse] at hmatches
        cases hmatches
      · cases h

end Evaluation

/-- Every record of the graph is still there, and each of its properties has the
old value or one of those that `R` allows. -/
def Carried (R : NodeId → String → Value → Prop) (g k : EntityGraph) : Prop :=
  ∀ n d, g.nodes.get? n = some d → ∃ d', k.nodes.get? n = some d' ∧
    ∀ p, d'.properties.get? p = d.properties.get? p ∨ ∃ x, R n p x ∧ d'.properties.get? p = some x

/-- Some member supplies the value for the node. -/
def Supplied (w : WriteContext) (es : List EntityInstance) (n : NodeId) (p : String) (x : Value) :
    Prop :=
  ∃ e ∈ es, e.nodeId = n ∧ suppliedValue w e p = some x

/-- What validation says of a member that addresses a stored record. -/
structure Checked (w : WriteContext) (g : EntityGraph) (e : EntityInstance) (v : ValidatedEntity) :
    Prop where
  type : v.entity.entityType = e.entityType
  id : v.entity.entityId = e.entityId
  update : (g.nodes.get? e.nodeId).isSome = true → v.isUpdate = true
  supplies : (g.nodes.get? e.nodeId).isSome = true → ∀ p x,
    v.entity.properties.get? p = some x → suppliedValue w e p = some x

section Records
variable {w : WriteContext} {g k : EntityGraph} {R : NodeId → String → Value → Prop}
  {e : EntityInstance} {v : ValidatedEntity}

theorem Checked.node (h : Checked w g e v) : v.entity.nodeId = e.nodeId := by
  rw [EntityInstance.nodeId, EntityInstance.nodeId, h.type, h.id]

theorem Carried.refl : Carried R g g := fun _ d hd => ⟨d, hd, fun _ => .inl rfl⟩

theorem Carried.of_nodes {k' : EntityGraph} (h : Carried R g k) (hnodes : k'.nodes = k.nodes) :
    Carried R g k' := by
  unfold Carried
  rw [hnodes]
  exact h

theorem Carried.present (h : Carried R g k) {n : NodeId}
    (hn : (g.nodes.get? n).isSome = true) : (k.nodes.get? n).isSome = true := by
  have ⟨d, hd⟩ := Option.isSome_iff_exists.mp hn
  have ⟨d', hd', _⟩ := h n d hd
  rw [hd']
  rfl

theorem Carried.write (h : Carried R g k)
    (hupdate : (g.nodes.get? v.entity.nodeId).isSome = true → v.isUpdate = true)
    (hR : (g.nodes.get? v.entity.nodeId).isSome = true → ∀ p x,
      v.entity.properties.get? p = some x → R v.entity.nodeId p x) :
    Carried R g (writeEntity k v) := by
  intro n d hd
  have ⟨d', hd', hproperties⟩ := h n d hd
  by_cases hn : v.entity.nodeId = n
  · subst hn
    have hpresent : (g.nodes.get? v.entity.nodeId).isSome = true := by
      rw [hd]
      rfl
    rw [writeEntity_update k v (hupdate hpresent)]
    use overwrite d' v.entity
    constructor
    case left => simp [EntityGraph.modifyNode, hd']
    case right =>
      intro p
      simp only [overwrite, Dict.get?_update]
      cases hv : v.entity.properties.get? p with
      | none => exact hproperties p
      | some x => exact .inr ⟨x, hR hpresent p x hv, rfl⟩
  · rw [writeEntity_of_ne hn]
    exact ⟨d', hd', hproperties⟩

variable {m : EntityMetadata}

theorem validateEntity_supplies
    (h : validateEntity w k e.entityType e.entityId e.properties m = .ok v)
    (hupdate : v.isUpdate = true) {p : String} {x : Value}
    (hx : v.entity.properties.get? p = some x) : suppliedValue w e p = some x := by
  unfold validateEntity at h
  split at h
  · cases h
  · rename_i schema hschema
    split_ifs at h
    simp only at h
    split at h
    · cases h
    · rename_i result hresult
      split_ifs at h with herrors
      rw [Except.ok.injEq] at h
      rw [← h] at hx hupdate
      simp only at hx hupdate
      rw [hupdate] at hresult
      have ⟨_, _, hvalues⟩ := validatePropertyPayload_ok hresult herrors
      rw [hvalues p] at hx
      have ⟨declared, hdeclared, hvalue⟩ := Option.bind_eq_some_iff.mp hx
      simp only [validatedValue, Bool.not_true, Bool.false_eq_true, if_false] at hvalue
      split_ifs at hvalue with hkey
      split at hvalue
      · rename_i raw hraw
        have hsupplied : e.properties.get? p = some raw := by
          unfold payloadSource at hraw
          split at hraw
          · exact hraw
          · rw [Dict.get?_erase] at hraw
            split_ifs at hraw
            exact hraw
        unfold suppliedValue
        rw [hschema, Option.bind_some, hdeclared, Option.bind_some, hsupplied, Option.bind_some]
        exact hvalue
      · cases hvalue

theorem checked_of_validate
    (hk : (g.nodes.get? e.nodeId).isSome = true → (k.nodes.get? e.nodeId).isSome = true)
    (h : validateEntity w k e.entityType e.entityId e.properties m = .ok v) : Checked w g e v := by
  have ⟨htype, hid⟩ := validateEntity_spelling h
  have hupdate : (g.nodes.get? e.nodeId).isSome = true → v.isUpdate = true := fun hg =>
    (validateEntity_ok h).2.2.trans (hk hg)
  exact ⟨htype, hid, hupdate, fun hg _ _ hx => validateEntity_supplies h (hupdate hg) hx⟩

theorem adds_carried {reference : EntityBatch → EntityGraph} {es : List EntityInstance}
    {members : List EntityInstance} {b b' : EntityBatch}
    (hreference : ∀ b : EntityBatch, reference b = g ∨ reference b = b.graph)
    (h : Adds w reference b members b') (hcarried : Carried (Supplied w es) g b.graph)
    (hes : ∀ m ∈ members, m ∈ es) :
    Carried (Supplied w es) g b'.graph ∧ b.validated ⊆ b'.validated ∧
      ∀ m ∈ members, ∃ v ∈ b'.validated, Checked w g m v := by
  induction h with
  | nil => exact ⟨hcarried, List.Subset.refl _, fun m hm => by cases hm⟩
  | @cons b mid b' m members v _ _ hv hgraph hvalidated _ ih =>
    have hchecked : Checked w g m v := by
      apply checked_of_validate _ hv
      rcases hreference b with hfixed | hcurrent
      · rw [hfixed]
        exact id
      · rw [hcurrent]
        exact hcarried.present
    have hmem := hes m List.mem_cons_self
    have hwritten : Carried (Supplied w es) g mid.graph := by
      rw [hgraph]
      apply hcarried.write
      · rw [hchecked.node]
        exact hchecked.update
      · rw [hchecked.node]
        exact fun hg p x hx => ⟨m, hmem, rfl, hchecked.supplies hg p x hx⟩
    have ⟨hall, hsubset, hothers⟩ :=
      ih hwritten fun q hq => hes q (List.mem_cons_of_mem m hq)
    rw [hvalidated] at hsubset
    refine ⟨hall, fun u hu => hsubset (List.mem_append_left _ hu), ?_⟩
    intro q hq
    rcases List.mem_cons.mp hq with heq | hq
    · rw [heq]
      exact ⟨v, hsubset (List.mem_append_right _ (List.mem_singleton.mpr rfl)), hchecked⟩
    · exact hothers q hq

end Records

section Writes
variable {c : GuardedContext} {g h proposed : EntityGraph} {es : List EntityInstance}
  {validated : List ValidatedEntity}

theorem keepsFrozen_of_unrefused {R : NodeId → String → Value → Prop} (hplain : Plain c g es)
    (hcarried : Carried R g h) (hR : ∀ n p x, (g.nodes.get? n).isSome = true → R n p x →
      Supplied c.w es n p x) (hchecked : ∀ e ∈ es, ∃ v ∈ validated, Checked c.w g e v)
    (heval : evaluateMutationGuards c g proposed validated = .ok [])
    (hshown : ∀ n d p x, h.nodes.get? n = some d → d.properties.get? p = some x →
      (g.nodes.get? n).isSome = true → R n p x →
      ∃ d', proposed.nodes.get? n = some d' ∧ d'.properties.get? p = some x) :
    KeepsFrozen c g h := by
  intro guard hguard n d hd hfrozen
  have ⟨d', hd', hproperties⟩ := hcarried n d hd
  use d', hd'
  have hpresent : (g.nodes.get? n).isSome = true := by
    rw [hd]
    rfl
  rcases hproperties guard.property with hsame | ⟨x, hx, hnew⟩
  case inl =>
    rw [hsame]
    rfl
  case inr =>
    have ⟨e, he, hnode, hsupplied⟩ := hR n _ x hpresent hx
    have ⟨v, hv, hmember⟩ := hchecked e he
    have ⟨seen, hseen, hvalue⟩ := hshown n d' _ x hd' hnew hpresent hx
    have hread : ∀ k : EntityGraph, k.getEntity v.entity.entityType v.entity.entityId =
        k.nodes.get? n := fun k => congrArg k.nodes.get? (hmember.node.trans hnode)
    have ⟨evaluated, houtcome⟩ := evaluate_unrefused heval hv ((hread proposed).trans hseen) hguard
    rw [hread g, hd] at houtcome
    rw [← hnode] at hd hpresent
    have htype : d.entityType = v.entity.entityType :=
      (hplain.unambiguous.stored e he d hd).trans hmember.type.symm
    have hequal := outcome_unrefused houtcome htype (hmember.update hpresent) hfrozen
    rw [hvalue] at hequal
    cases hold : d.properties.get? guard.property with
    | none =>
      rw [hold] at hequal
      cases hequal
    | some old =>
      rw [hold] at hequal
      have hcanonical := hplain.strict guard hguard e he d hd hfrozen x hsupplied old hold hequal
      rw [hnew]
      exact congrArg some hcanonical

theorem directGuards_unrefused
    (hguards : (directGuards c).entity g proposed validated = []) :
    evaluateMutationGuards c g proposed validated = .ok [] := by
  unfold directGuards at hguards
  simp only at hguards
  split at hguards
  · rename_i refusals heval
    rw [heval, hguards]
  · cases hguards
  · cases hguards

variable {source : String}

theorem keepsFrozen_direct {reference : EntityBatch → EntityGraph} {b : EntityBatch}
    (hplain : Plain c g es)
    (hreference : ∀ b : EntityBatch, reference b = g ∨ reference b = b.graph)
    (hfold : (es.zipIdx 1).foldlM (fun b p => addEntityMember c.w source reference b (p.2, p.1))
      { graph := g } = .ok b) (herrors : b.errors = []) (hproposed : proposed.nodes = b.graph.nodes)
    (hguards : (directGuards c).entity g proposed b.validated = [])
    (hnodes : h.nodes = b.graph.nodes) : KeepsFrozen c g h := by
  have ⟨hcarried, _, hall⟩ :=
    adds_carried hreference (adds_of_foldlM hfold herrors).2 Carried.refl fun _ hm => hm
  apply keepsFrozen_of_unrefused hplain (hcarried.of_nodes hnodes) (fun _ _ _ _ hR => hR) _
    (directGuards_unrefused hguards)
  · intro n d p x hd hx _ _
    rw [hproposed, ← hnodes]
    exact ⟨d, hd, hx⟩
  · exact hall

theorem gather_valid {ι α β : Type} {label : ι → String} {validate : ι → Except CoreError α}
    {xs : List ι} {vs : List α} (key : α → β) (key' : ι → β)
    (hok : gather label validate xs = .ok (vs, []))
    (hkey : ∀ x ∈ xs, ∀ v, validate x = .ok v → key v = key' x) :
    vs.map key = xs.map key' ∧ ∀ x ∈ xs, ∃ v ∈ vs, validate x = .ok v := by
  induction xs generalizing vs with
  | nil =>
    have hnil : ([] : List α) = vs := congrArg Prod.fst (Except.ok.inj hok)
    rw [← hnil]
    exact ⟨rfl, fun x hx => by cases hx⟩
  | cons x xs ih =>
    unfold gather at hok
    split at hok
    · have ⟨⟨vs', es'⟩, _, hok⟩ := bind_eq_ok.mp hok
      have hcons := congrArg Prod.snd (pure_eq_ok.mp hok)
      cases hcons
    · cases hok
    · rename_i v hv
      have ⟨⟨vs', es'⟩, hrest, hok⟩ := bind_eq_ok.mp hok
      have hpair := pure_eq_ok.mp hok
      have hvs : v :: vs' = vs := congrArg Prod.fst hpair
      have hes : es' = [] := congrArg Prod.snd hpair
      rw [hes] at hrest
      have ⟨hkeys, hvalid⟩ := ih hrest fun y hy => hkey y (List.mem_cons_of_mem x hy)
      rw [← hvs]
      constructor
      case left => rw [List.map_cons, List.map_cons, hkeys, hkey x List.mem_cons_self v hv]
      case right =>
        intro y hy
        rcases List.mem_cons.mp hy with heq | hy
        · exact ⟨v, List.mem_cons_self, heq ▸ hv⟩
        · have ⟨u, hu, huy⟩ := hvalid y hy
          exact ⟨u, List.mem_cons_of_mem v hu, huy⟩

variable {vs : List ValidatedEntity} {w : WriteContext} {k k' : EntityGraph} {call : Call}

theorem applyAll_leaves (hok : vs.foldlM (fun k v => do
      let (h, _) ← applyEntity w k v source false
      return h) k = .ok k') {n : NodeId} (hn : ∀ v ∈ vs, v.entity.nodeId ≠ n) :
    k'.nodes.get? n = k.nodes.get? n := by
  apply foldlM_invariant (fun s : EntityGraph => s.nodes.get? n = k.nodes.get? n) rfl _ hok
  intro v hv s t hs hstep
  have ⟨⟨t', warning⟩, ht, hstep⟩ := bind_eq_ok.mp hstep
  rw [← pure_eq_ok.mp hstep, (applyEntity_ok ht).1, writeEntity_of_ne (hn v hv)]
  exact hs

theorem applyAll_shows (hok : vs.foldlM (fun k v => do
      let (h, _) ← applyEntity w k v source false
      return h) k = .ok k') (hnodup : (vs.map fun v => v.entity.nodeId).Nodup) {v : ValidatedEntity}
    (hv : v ∈ vs) (hupdate : v.isUpdate = true) {d : EntityInstance}
    (hd : k.nodes.get? v.entity.nodeId = some d) {p : String} {x : Value}
    (hx : v.entity.properties.get? p = some x) :
    ∃ d', k'.nodes.get? v.entity.nodeId = some d' ∧ d'.properties.get? p = some x := by
  induction vs generalizing k d with
  | nil => cases hv
  | cons u us ih =>
    have ⟨mid, hmid, hrest⟩ := foldlM_cons_eq_ok.mp hok
    have ⟨⟨mid', warning⟩, happlied, hmid⟩ := bind_eq_ok.mp hmid
    have hgraph : mid = writeEntity k u :=
      (pure_eq_ok.mp hmid).symm.trans (applyEntity_ok happlied).1
    rw [List.map_cons, List.nodup_cons] at hnodup
    have hapart : ∀ q ∈ us, q.entity.nodeId ≠ u.entity.nodeId := fun q hq heq =>
      hnodup.1 (List.mem_map.mpr ⟨q, hq, heq⟩)
    rcases List.mem_cons.mp hv with heq | hv
    · rw [← heq] at hgraph hapart
      use overwrite d v.entity
      constructor
      case left =>
        rw [applyAll_leaves hrest hapart, hgraph, writeEntity_update k v hupdate]
        simp [EntityGraph.modifyNode, hd]
      case right => simp [overwrite, Dict.get?_update, hx]
    · apply ih hrest hnodup.2 hv
      rw [hgraph, writeEntity_of_ne (Ne.symm (hapart v hv))]
      exact hd

/-- A value that some validated member supplies for the node. -/
def ValidatedFor (vs : List ValidatedEntity) (n : NodeId) (p : String) (x : Value) : Prop :=
  ∃ v ∈ vs, v.entity.nodeId = n ∧ v.entity.properties.get? p = some x

theorem applyEntityMembers_carried {s : EntityGraph × Counts}
    (hok : validated.foldlM (applyEntityMember w call) (g, {}) = .ok s) :
    Carried (ValidatedFor validated) g s.1 := by
  apply foldlM_invariant (fun s : EntityGraph × Counts => Carried (ValidatedFor validated) g s.1)
    Carried.refl _ hok
  intro v hv s t hs hstep
  have hsupplied : ∀ p x, v.entity.properties.get? p = some x →
      ValidatedFor validated v.entity.nodeId p x := fun p x hx => ⟨v, hv, rfl, hx⟩
  unfold applyEntityMember at hstep
  simp only at hstep
  split at hstep
  · split_ifs at hstep
    · have ⟨⟨k, warning⟩, hk, hstep⟩ := bind_eq_ok.mp hstep
      rw [← pure_eq_ok.mp hstep, (applyEntity_ok hk).1]
      apply hs.write
      · exact fun _ => rfl
      · exact fun _ => hsupplied
    · rw [Except.ok.injEq] at hstep
      exact hstep ▸ hs
  · rename_i hnone
    have ⟨⟨k, warning⟩, hk, hstep⟩ := bind_eq_ok.mp hstep
    rw [← pure_eq_ok.mp hstep, (applyEntity_ok hk).1]
    apply hs.write
    · intro hpresent
      have ⟨d, hd⟩ := Option.isSome_iff_exists.mp (hs.present hpresent)
      have hget : s.1.nodes.get? v.entity.nodeId = none := hnone
      have hsome : s.1.nodes.get? v.entity.nodeId = some d := hd
      rw [hget] at hsome
      cases hsome
    · exact fun _ => hsupplied

theorem keepsFrozen_applyEntities {stepId : String} {set : EntitySet}
    {preview : ApplyEntitiesPreview} (hplain : Plain c g set.entities)
    (hdistinct : (set.entities.map (·.entityId)).Nodup)
    (hok : applyEntitySet c.w (workflowGuards c stepId) stepId call g set = .ok (h, preview)) :
    KeepsFrozen c g h := by
  obtain ⟨vs, hgather, hguards, hfold⟩ := applyEntitySet_accepted hok
  have hcarried : Carried (ValidatedFor vs) g h := applyEntityMembers_carried hfold
  have hmember : ∀ e ∈ set.entities, ∀ v, validateEntity c.w g set.entityType e.entityId e.properties
      {} = .ok v → Checked c.w g e v := by
    intro e he v hv
    rw [← set.member_type e he] at hv
    exact checked_of_validate id hv
  obtain ⟨hkeys, hall⟩ := gather_valid (fun v : ValidatedEntity => v.entity.nodeId)
    EntityInstance.nodeId hgather fun e he v hv => (hmember e he v hv).node
  have hnodup : (vs.map fun v => v.entity.nodeId).Nodup := by
    rw [hkeys, List.nodup_map_iff_inj_on (hdistinct.of_map _)]
    intro a ha b hb hab
    rw [EntityInstance.nodeId, EntityInstance.nodeId, set.member_type a ha,
      set.member_type b hb] at hab
    exact List.inj_on_of_nodup_map hdistinct ha hb (makeNodeId_inj hab)
  have hchecked : ∀ e ∈ set.entities, ∃ v ∈ vs, Checked c.w g e v := by
    intro e he
    obtain ⟨v, hv, hvalidated⟩ := hall e he
    exact ⟨v, hv, hmember e he v hvalidated⟩
  have hsource : ∀ v ∈ vs, ∃ e ∈ set.entities, Checked c.w g e v := by
    intro v hv
    obtain ⟨e, he, hvalidated⟩ := gather_ok hgather v hv
    exact ⟨e, he, hmember e he v hvalidated⟩
  have hR : ∀ n p x, (g.nodes.get? n).isSome = true → ValidatedFor vs n p x →
      Supplied c.w set.entities n p x := by
    rintro n p x hpresent ⟨v, hv, hnode, hx⟩
    obtain ⟨e, he, hev⟩ := hsource v hv
    rw [← hnode, hev.node] at hpresent
    exact ⟨e, he, hev.node.symm.trans hnode, hev.supplies hpresent p x hx⟩
  change enforceEntityMutationGuards c stepId g vs = .ok () at hguards
  unfold enforceEntityMutationGuards at hguards
  split_ifs at hguards with hskip
  · rw [Bool.or_eq_true, List.isEmpty_iff, List.isEmpty_iff] at hskip
    rcases hskip with hnone | hempty
    case inl =>
      intro guard hguard
      unfold GuardedContext.frozenGuards at hguard
      rw [hnone] at hguard
      cases hguard
    case inr =>
      intro guard _ n d hd _
      obtain ⟨d', hd', hproperties⟩ := hcarried n d hd
      use d', hd'
      rcases hproperties guard.property with hsame | ⟨x, ⟨v, hv, _⟩, _⟩
      · rw [hsame]
        rfl
      · rw [hempty] at hv
        cases hv
  · obtain ⟨proposed, hproposed, hguards⟩ := bind_eq_ok.mp hguards
    obtain ⟨refusals, heval, hguards⟩ := bind_eq_ok.mp hguards
    rw [not_not.mp (refuseIf_eq_ok.mp hguards)] at heval
    apply keepsFrozen_of_unrefused hplain hcarried hR hchecked heval
    rintro n d p x _ _ hpresent ⟨v, hv, hnode, hx⟩
    obtain ⟨e, he, hev⟩ := hsource v hv
    rw [← hnode] at hpresent ⊢
    obtain ⟨stored, hstored⟩ := Option.isSome_iff_exists.mp hpresent
    rw [hev.node] at hpresent
    exact applyAll_shows hproposed hnodup hv (hev.update hpresent) hstored hx

theorem keepsFrozen_apply {f : GuardedWrite} (hplain : Plain c g f.entities)
    (hok : f.apply c g = .ok h) : KeepsFrozen c g h := by
  cases f with
  | addEntities entities =>
    have ⟨b, hb, hok⟩ := bind_eq_ok.mp hok
    rw [← pure_eq_ok.mp hok]
    have ⟨hfold, herrors, hguards⟩ := addEntities_accepted hb
    exact keepsFrozen_direct hplain (fun _ => .inl rfl) hfold herrors rfl hguards rfl
  | batchDirectWrite source sourceRef entities requests call =>
    have ⟨⟨b, s⟩, hs, hok⟩ := bind_eq_ok.mp hok
    rw [← pure_eq_ok.mp hok]
    have ⟨hfold, herrors, hnodes, proposed, hproposed, hguards⟩ := batchDirectWrite_ok hs
    exact keepsFrozen_direct hplain (fun _ => .inr rfl) hfold herrors hproposed hguards hnodes
  | applyEntities stepId call set distinct =>
    have ⟨⟨k, preview⟩, hk, hok⟩ := bind_eq_ok.mp hok
    rw [← pure_eq_ok.mp hok]
    exact keepsFrozen_applyEntities hplain distinct hk

end Writes

def jsonTerms : String × PropertySchema := ("terms", { type := .json, optional := true })

/-- Contracts, and a type whose name begins with theirs. -/
def contractConfig : CoreConfig where
  entityTypes := Dict.ofList
    [("Contract", { properties := Dict.ofList [("state", { optional := true }), jsonTerms] }),
      ("Contract:Draft", { properties := Dict.ofList [jsonTerms] })]
  relationships := []

/-- The terms are frozen while the contract is signed. -/
def signedTerms : FrozenPropertyGuard where
  name := "signed_terms"
  entityType := "Contract"
  property := "terms"
  whileState := some [("state", .str "signed")]

def contractContext : GuardedContext where
  w := { rt := plainRuntime, config := contractConfig }
  mutationGuards := [.frozen signedTerms]
  repr := plainRuntime.str

def contract (id : String) (properties : List (String × Value)) : EntityInstance :=
  { entityType := "Contract", entityId := id, properties := Dict.ofList properties }

/-- One signed contract. -/
def signed (id : String) : EntityGraph where
  nodes := Dict.ofList [(makeNodeId "Contract" id,
    contract id [("state", .str "signed"), ("terms", .int 1)])]

end Cruxible.FrozenProperties

import Cruxible.GraphOperations

/-!
# Property differences and the group-approval drift marker

The key-level property differ compares values with the language's `==`. The
drift marker records how the content of a group-approved edge diverges from
what the group approved; it rides on the assertion beside the review and
lifecycle axes and never touches either.
-/
namespace Cruxible.GroupDrift
open JsonValue PythonDict AssertionState AppendOnly Cruxible.Graph GraphOperations

/-- `sorted(...)` of a list of names. -/
def sorted (names : List String) : List String := names.insertionSort (· ≤ ·)

structure PropertyDeltaResult where
  added : List String
  removed : List String
  changed : List String
  unchanged : List String

/-- Values of a key that both mappings hold, compared with `==`. -/
def differs (proposed current : Properties) (key : String) : Bool :=
  match proposed.get? key, current.get? key with
  | some a, some b => !a.pyEq b
  | _, _ => false

/-- `property_delta`. -/
def propertyDelta (proposed current : Properties) : PropertyDeltaResult :=
  let shared := proposed.keys.filter (fun k => current.contains k)
  { added := sorted (proposed.keys.filter (fun k => !current.contains k)),
    removed := sorted (current.keys.filter (fun k => !proposed.contains k)),
    changed := sorted (shared.filter (differs proposed current)),
    unchanged := sorted (shared.filter (fun k => !differs proposed current k)) }

structure PropertyChangeItem where
  property : String
  fromValue : Value
  toValue : Value
  deriving DecidableEq

/-- `property_value_changes`. -/
def propertyValueChanges (proposed current : Properties) (includeAdded includeRemoved : Bool) :
    List PropertyChangeItem :=
  let delta := propertyDelta proposed current
  let names := delta.changed ++ (if includeAdded then delta.added else []) ++
    (if includeRemoved then delta.removed else [])
  (sorted names).map fun name =>
    { property := name, fromValue := (current.get? name).getD .null,
      toValue := (proposed.get? name).getD .null }

/-- `content_change`: the properties that a validated write changes. -/
def contentChange (incoming existing : RelationshipInstance) : List String :=
  let delta := propertyDelta incoming.properties existing.properties
  sorted (delta.changed ++ delta.added ++ delta.removed)

structure GroupContentDrift where
  groupId : String
  changedProperties : List String
  approvedValues : Properties

/-- The stored values of the changed properties, as far as they are present. -/
def approvedValuesOf (stored : Properties) (changed : List String) : Properties :=
  Dict.ofList (changed.filterMap (fun name => (stored.get? name).map (fun v => (name, v))))

/-- `group_content_drift`. -/
def groupContentDrift (incoming existing : RelationshipInstance) : Option GroupContentDrift := do
  let provenance ← existing.metadata.provenance
  let groupId ← provenanceGroupId provenance
  let changed := contentChange incoming existing
  if changed = [] then none
  else some { groupId := groupId, changedProperties := changed,
              approvedValues := approvedValuesOf existing.properties changed }

/-- The sentinel comparison of the recompute: absent equals only absent. -/
def diverges (stored approved : Option Value) : Bool :=
  match stored, approved with
  | some a, some b => !a.pyEq b
  | none, none => false
  | _, _ => true

/-- The marker that the recompute leaves on an edge; `none` leaves the edge as
it stands. -/
def recomputedDrift (persisted : RelationshipInstance) (drift : GroupContentDrift)
    (receiptId : Option String) (actorContext : Option GovernedActorContext) (now : Timestamp) :
    Option (Option GroupApprovalDrift) :=
  let previous := persisted.metadata.assertion.groupApprovalDrift
  let carried := previous.filter (fun p => p.groupId = drift.groupId)
  let approvedValues := match carried with
    | some p => drift.approvedValues.update p.approvedValues
    | none => drift.approvedValues
  let candidates := match carried with
    | some p => (drift.changedProperties ++ p.changedProperties).dedup
    | none => drift.changedProperties.dedup
  let divergent := sorted (candidates.filter (fun name =>
    diverges (persisted.properties.get? name) (approvedValues.get? name)))
  if divergent = [] then
    match previous with
    | none => none
    | some _ => some none
  else
    some (some
      { groupId := drift.groupId, changedProperties := divergent,
        approvedValues := Dict.ofList (approvedValues.entries.filter (fun b => b.1 ∈ divergent)),
        firstDetectedAt := match carried with
          | some p => (p.firstDetectedAt.or p.detectedAt).or (some now)
          | none => some now,
        detectedAt := some now, receiptId := receiptId, actorContext := actorContext })

/-- `stamp_group_approval_drift`. -/
def stampGroupApprovalDrift (g : EntityGraph) (r : RelationshipInstance)
    (drift : Option GroupContentDrift) (receiptId : Option String)
    (actorContext : Option GovernedActorContext) (now : Timestamp) : EntityGraph :=
  match drift with
  | none => g
  | some drift =>
      match g.getRelationship r.fromType r.fromId r.toType r.toId r.relationshipType with
      | none => g
      | some persisted =>
          match recomputedDrift persisted drift receiptId actorContext now with
          | none => g
          | some marker =>
              g.replaceRelationshipState r.fromType r.fromId r.toType r.toId r.relationshipType
                persisted.properties
                { persisted.metadata with assertion :=
                  { persisted.metadata.assertion with groupApprovalDrift := marker } }
                persisted.edgeKey

/-- The first match of a tuple is also the first match under its own key. -/
theorem modifyEdge_key {g : EntityGraph} {a b c d r : String} {e : EdgeData}
    (h : g.findRelationshipEdge a b c d r none = some e) (f : EdgeData → EdgeData) :
    g.modifyEdge a b c d r (some e.key) f = g.modifyEdge a b c d r none f := by
  have hsharp : ∀ x, EntityGraph.edgeMatches (makeNodeId a b) (makeNodeId c d) r (some e.key) x =
      true → EntityGraph.edgeMatches (makeNodeId a b) (makeNodeId c d) r none x = true := by
    intro x hx
    simp only [EntityGraph.edgeMatches, Bool.and_eq_true, decide_eq_true_eq] at hx ⊢
    exact ⟨⟨hx.1.1, trivial⟩, hx.2⟩
  have hself : EntityGraph.edgeMatches (makeNodeId a b) (makeNodeId c d) r (some e.key) e =
      true := by
    simpa [EntityGraph.edgeMatches] using List.find?_some h
  have he := modifyFirst_refine hsharp h hself (f := f)
  simp only [EntityGraph.modifyEdge, he]

theorem stampGroupApprovalDrift_eq (g : EntityGraph) (r : RelationshipInstance)
    (drift : Option GroupContentDrift) (receiptId : Option String)
    (actorContext : Option GovernedActorContext) (now : Timestamp) :
    ∃ f : EdgeData → Option GroupApprovalDrift,
      stampGroupApprovalDrift g r drift receiptId actorContext now = g ∨
      stampGroupApprovalDrift g r drift receiptId actorContext now =
        g.modifyEdge r.fromType r.fromId r.toType r.toId r.relationshipType none
          (fun e => { e with metadata := { e.metadata with assertion :=
            { e.metadata.assertion with groupApprovalDrift := f e } } }) := by
  unfold stampGroupApprovalDrift
  split
  · exact ⟨fun _ => none, .inl rfl⟩
  · rename_i drift
    split
    · exact ⟨fun _ => none, .inl rfl⟩
    · rename_i persisted hp
      split
      · exact ⟨fun _ => none, .inl rfl⟩
      · rename_i marker _
        refine ⟨fun _ => marker, .inr ?_⟩
        obtain ⟨e, he, rfl⟩ := Option.map_eq_some_iff.mp hp
        rw [EntityGraph.replaceRelationshipState, modifyEdge_key he]
        apply EntityGraph.modifyEdge_congr
        intro e' he'
        obtain rfl : e = e' := by rw [he] at he'; exact Option.some.inj he'
        rfl

end Cruxible.GroupDrift

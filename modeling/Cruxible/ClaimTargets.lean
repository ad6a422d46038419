import Cruxible.ClaimIndexes

/-!
# Claim references that are resolved against a graph

`graph/claim_target.py`. A reference has a tuple and may have a claim id, which wins,
and the per-load key of an edge. The edges of an image need not carry a claim id, and
their keys need not be integers.
-/
namespace Cruxible.ClaimTargets
open GraphImages ClaimIndexes AssertionState JsonValue
open Cruxible.Graph (blank strip)

structure ClaimRequest where
  relationshipType : String
  fromType : String
  fromId : String
  toType : String
  toId : String
  claimId : Option String := none
  edgeKey : Option Int := none

/-- What a lookup returns: an edge with its endpoints spelled as types and ids. -/
structure ClaimRecord where
  relationshipType : String
  fromType : String
  fromId : String
  toType : String
  toId : String
  edgeKey : Option Int
  claimId : Option String
  properties : Properties
  metadata : RelationshipMetadata

/-- `identity_tuple`. -/
def ClaimRecord.identityTuple (r : ClaimRecord) : String × String × String × String × String :=
  (r.fromType, r.fromId, r.toType, r.toId, r.relationshipType)

def ClaimRequest.identityTuple (q : ClaimRequest) : String × String × String × String × String :=
  (q.fromType, q.fromId, q.toType, q.toId, q.relationshipType)

/-- A refusal of the resolver, or a record that cannot be built. -/
inductive TargetError where
  | staleId (claimId : String) (current : Option String)
  | otherClaim (claimId : String) (found : ClaimRecord)
  | keysDisagree (claimId : String) (edgeKey : Option Int) (supplied : Int)
  | blankClaimId
  | invalidNodeId

def TargetError.isConflict : TargetError → Bool
  | .staleId .. | .otherClaim .. | .keysDisagree .. => true
  | .blankClaimId | .invalidNodeId => false

/-- `{from_type}:{from_id} -[{relationship_type}]-> {to_type}:{to_id}`. -/
def label (t : String × String × String × String × String) : String :=
  t.1 ++ ":" ++ t.2.1 ++ " -[" ++ t.2.2.2.2 ++ "]-> " ++ t.2.2.1 ++ ":" ++ t.2.2.2.1

def keyText : Option Int → String
  | some k => toString k
  | none => "None"

def TargetError.message (q : ClaimRequest) : TargetError → String
  | .staleId claimId current => "claim_id '" ++ claimId ++ "' is not a claim in this instance, but "
      ++ label q.identityTuple ++ " currently resolves to claim_id '" ++ current.getD "None" ++
      "'. The supplied id is stale; re-read the claim and retry with its current id (or omit " ++
      "claim_id to target the tuple deliberately)."
  | .otherClaim claimId found => "claim_id '" ++ claimId ++ "' resolves to " ++
      label found.identityTuple ++ ", which is not the requested claim " ++ label q.identityTuple
  | .keysDisagree claimId edgeKey supplied => "target disambiguators disagree: claim_id '" ++
      claimId ++ "' is edge_key " ++ keyText edgeKey ++ ", but edge_key " ++ toString supplied ++
      " was also supplied. Supply one, or supply matching values -- neither is silently preferred."
  | .blankClaimId => "claim_id must be a non-empty identifier; omit it entirely (None) for a " ++
      "reference, candidate, wire, or dry-run instance"
  | .invalidNodeId => "Invalid node_id"

def intKey : EdgeKey → Option Int
  | .int k => some k
  | .other _ => none

/-- A record refuses a blank claim id. -/
def record (relationshipType fromType fromId toType toId : String) (claimId : Option String)
    (e : EdgeData) : Except TargetError ClaimRecord :=
  if claimId.any blank then .error .blankClaimId
  else .ok
    { relationshipType := relationshipType, fromType := fromType, fromId := fromId,
      toType := toType, toId := toId, edgeKey := intKey e.key, claimId := claimId,
      properties := e.properties, metadata := e.metadata }

/-- `get_relationship`: the first match, spelled with the caller's endpoints. -/
def getRelationship (g : EntityGraph) (q : ClaimRequest) :
    Except TargetError (Option ClaimRecord) :=
  match g.findRelationshipEdge q.fromType q.fromId q.toType q.toId q.relationshipType q.edgeKey with
  | none => .ok none
  | some e =>
    (record q.relationshipType q.fromType q.fromId q.toType q.toId e.claimId e).map some

/-- `find_relationship_by_claim_id`: the index, then a scan of the edges. -/
def findRelationshipByClaimId (g : EntityGraph) (claimId : String) :
    Except TargetError (Option ClaimRecord) :=
  if claimId ∈ g.claimIds then
    match g.edges.find? fun e => e.claimId = some claimId with
    | none => .ok none
    | some e =>
      match splitNodeId e.fromNode, splitNodeId e.toNode with
      | some s, some t => (record e.relationshipType s.1 s.2 t.1 t.2 (some claimId) e).map some
      | _, _ => .error .invalidNodeId
  else .ok none

structure ClaimTarget where
  relationship : Option ClaimRecord
  resolvedBy : Option String

/-- The claim id of a request; a blank one is an absent one. -/
def suppliedId (q : ClaimRequest) : Option String :=
  (q.claimId.map strip).filter (· ≠ "")

/-- `resolve_claim_target`. -/
def resolveClaimTarget (g : EntityGraph) (q : ClaimRequest) : Except TargetError ClaimTarget := do
  let tupleMatch ← getRelationship g q
  match suppliedId q with
  | none => pure ⟨tupleMatch, q.edgeKey.map fun _ => "edge_key"⟩
  | some claimId =>
    match ← findRelationshipByClaimId g claimId with
    | none =>
      match tupleMatch with
      | some live => throw (.staleId claimId live.claimId)
      | none => pure ⟨none, some "claim_id"⟩
    | some byId =>
      if byId.identityTuple ≠ q.identityTuple then throw (.otherClaim claimId byId)
      match q.edgeKey with
      | some k =>
        if byId.edgeKey ≠ some k then throw (.keysDisagree claimId byId.edgeKey k)
        else pure ⟨some byId, some "claim_id"⟩
      | none => pure ⟨some byId, some "claim_id"⟩

/-- The edge connects the nodes of the request with its relationship type. -/
def OfTuple (q : ClaimRequest) (e : EdgeData) : Prop :=
  e.fromNode = makeNodeId q.fromType q.fromId ∧ e.toNode = makeNodeId q.toType q.toId ∧
    e.relationshipType = q.relationshipType

def HasKey (q : ClaimRequest) (e : EdgeData) : Prop := ∀ k, q.edgeKey = some k → e.key = .int k

/-- The tuple of the edge, read from its node ids, is the one of the request. -/
def SpelledAs (q : ClaimRequest) (e : EdgeData) : Prop :=
  e.identity = some (q.relationshipType, q.fromType, q.fromId, q.toType, q.toId)

/-- The edge as a record with the endpoints of the request. -/
def recordOf (q : ClaimRequest) (e : EdgeData) : ClaimRecord where
  relationshipType := q.relationshipType
  fromType := q.fromType
  fromId := q.fromId
  toType := q.toType
  toId := q.toId
  edgeKey := intKey e.key
  claimId := e.claimId
  properties := e.properties
  metadata := e.metadata

/-- Every node id has its separator and no claim id is blank: the edges that the
mutators write and that stored rows hold. -/
structure Readable (g : EntityGraph) : Prop where
  spelled : ∀ e ∈ g.edges, e.identity ≠ none
  named : ∀ e ∈ g.edges, ∀ c, e.claimId = some c → blank c = false

section
variable {g : EntityGraph} {q : ClaimRequest} {e : EdgeData} {c : String}

theorem edgeMatches_iff :
    EntityGraph.edgeMatches (makeNodeId q.fromType q.fromId) (makeNodeId q.toType q.toId)
      q.relationshipType q.edgeKey e = true ↔ OfTuple q e ∧ HasKey q e := by
  unfold EntityGraph.edgeMatches OfTuple HasKey
  cases q.edgeKey with
  | none => simp [and_assoc]
  | some k =>
    simp only [Bool.and_eq_true, decide_eq_true_eq, Option.some.injEq, forall_eq']
    constructor
    · rintro ⟨⟨⟨h₁, h₂⟩, h₃⟩, h₄⟩
      exact ⟨⟨h₁, h₂, h₄⟩, h₃⟩
    · rintro ⟨⟨h₁, h₂, h₄⟩, h₃⟩
      exact ⟨⟨⟨h₁, h₂⟩, h₃⟩, h₄⟩

theorem splitNodeId_makeNodeId {n : String} {s : String × String} (h : splitNodeId n = some s) :
    n = makeNodeId s.1 s.2 := by
  unfold splitNodeId at h
  split_ifs at h with hcolon
  cases h
  unfold makeNodeId
  rw [Graph.makeNodeId_splitNodeId]

theorem ofTuple_of_spelledAs (h : SpelledAs q e) : OfTuple q e := by
  have ⟨s, hs, ht⟩ := Option.bind_eq_some_iff.mp h
  have ⟨t, ht, heq⟩ := Option.map_eq_some_iff.mp ht
  simp only [Prod.mk.injEq] at heq
  have ⟨hrel, hs₁, hs₂, ht₁, ht₂⟩ := heq
  refine ⟨?_, ?_, hrel⟩
  · rw [splitNodeId_makeNodeId hs, hs₁, hs₂]
  · rw [splitNodeId_makeNodeId ht, ht₁, ht₂]

theorem record_ok (hr : Readable g) (he : e ∈ g.edges)
    (relationshipType fromType fromId toType toId : String) :
    record relationshipType fromType fromId toType toId e.claimId e =
      .ok ⟨relationshipType, fromType, fromId, toType, toId, intKey e.key, e.claimId,
        e.properties, e.metadata⟩ := by
  have hnamed : ¬e.claimId.any blank = true := by
    cases hc : e.claimId with
    | none => simp
    | some c => simp [hr.named e he c hc]
  rw [record, if_neg hnamed]

theorem getRelationship_spec (hr : Readable g) (q : ClaimRequest) :
    (getRelationship g q = .ok none ∧ ∀ e ∈ g.edges, ¬(OfTuple q e ∧ HasKey q e)) ∨
      ∃ e ∈ g.edges, OfTuple q e ∧ HasKey q e ∧ getRelationship g q = .ok (some (recordOf q e)) := by
  unfold getRelationship
  cases hfound : g.findRelationshipEdge q.fromType q.fromId q.toType q.toId q.relationshipType
      q.edgeKey with
  | none =>
    left
    refine ⟨rfl, fun e he hmatch => ?_⟩
    exact List.find?_eq_none.mp hfound e he (edgeMatches_iff.mpr hmatch)
  | some e =>
    right
    have he := List.mem_of_find?_eq_some hfound
    have hmatch := edgeMatches_iff.mp (List.find?_some hfound)
    refine ⟨e, he, hmatch.1, hmatch.2, ?_⟩
    simp only [record_ok hr he]
    rfl

theorem findRelationshipByClaimId_unknown (hg : EdgesIndexed g)
    (h : ∀ e ∈ g.edges, e.claimId ≠ some c) : findRelationshipByClaimId g c = .ok none := by
  have hindex : c ∉ g.claimIds := by
    rw [hg.claims, mem_presentClaims]
    rintro ⟨e, he, hc⟩
    exact h e he hc
  rw [findRelationshipByClaimId, if_neg hindex]

theorem findRelationshipByClaimId_known (hg : EdgesIndexed g) (hr : Readable g) (he : e ∈ g.edges)
    (hc : e.claimId = some c) :
    ∃ r, findRelationshipByClaimId g c = .ok (some r) ∧ r.edgeKey = intKey e.key ∧
      (r.identityTuple = q.identityTuple ↔ SpelledAs q e) ∧
      (SpelledAs q e → r = recordOf q e) := by
  have hindex : c ∈ g.claimIds := by
    rw [hg.claims, mem_presentClaims]
    exact ⟨e, he, hc⟩
  have hfind : g.edges.find? (fun e => e.claimId = some c) = some e := by
    cases hf : g.edges.find? (fun e => e.claimId = some c) with
    | none => exact absurd hc (by simpa using List.find?_eq_none.mp hf e he)
    | some x =>
      have hx : x.claimId = some c := by simpa using List.find?_some hf
      rw [edge_unique hg.unique (List.mem_of_find?_eq_some hf) he hx hc]
  have ⟨k, hk⟩ := Option.ne_none_iff_exists'.mp (hr.spelled e he)
  have ⟨s, hs, hrest⟩ := Option.bind_eq_some_iff.mp hk
  have ⟨t, ht, hkey⟩ := Option.map_eq_some_iff.mp hrest
  refine ⟨⟨e.relationshipType, s.1, s.2, t.1, t.2, intKey e.key, e.claimId, e.properties,
    e.metadata⟩, ?_, rfl, ?_, ?_⟩
  · rw [findRelationshipByClaimId, if_pos hindex, hfind]
    simp only [hs, ht]
    rw [← hc, record_ok hr he]
    rfl
  · unfold SpelledAs ClaimRecord.identityTuple ClaimRequest.identityTuple
    rw [hk, ← hkey]
    simp only [Option.some.injEq, Prod.mk.injEq]
    constructor
    · rintro ⟨h₁, h₂, h₃, h₄, h₅⟩
      exact ⟨h₅, h₁, h₂, h₃, h₄⟩
    · rintro ⟨h₅, h₁, h₂, h₃, h₄⟩
      exact ⟨h₁, h₂, h₃, h₄, h₅⟩
  · intro hspelled
    unfold SpelledAs at hspelled
    rw [hk, ← hkey] at hspelled
    simp only [Option.some.injEq, Prod.mk.injEq] at hspelled
    have ⟨h₅, h₁, h₂, h₃, h₄⟩ := hspelled
    simp only [recordOf, h₁, h₂, h₃, h₄, h₅]

variable {found : Option ClaimRecord}

theorem resolve_without_id (h : suppliedId q = none) (htuple : getRelationship g q = .ok found) :
    resolveClaimTarget g q = .ok ⟨found, q.edgeKey.map fun _ => "edge_key"⟩ := by
  unfold resolveClaimTarget
  rw [htuple, h]
  rfl

theorem resolve_stale_id (h : suppliedId q = some c) {live : ClaimRecord}
    (htuple : getRelationship g q = .ok (some live))
    (hid : findRelationshipByClaimId g c = .ok none) :
    resolveClaimTarget g q = .error (.staleId c live.claimId) := by
  unfold resolveClaimTarget
  rw [htuple, h]
  simp only [bind, Except.bind, hid]
  rfl

theorem resolve_gone_id (h : suppliedId q = some c) (htuple : getRelationship g q = .ok none)
    (hid : findRelationshipByClaimId g c = .ok none) :
    resolveClaimTarget g q = .ok ⟨none, some "claim_id"⟩ := by
  unfold resolveClaimTarget
  rw [htuple, h]
  simp only [bind, Except.bind, hid]
  rfl

theorem intKey_eq_iff {k : Int} : intKey e.key = some k ↔ e.key = .int k := by
  cases e.key <;> simp [intKey]

theorem resolve_known_id (h : suppliedId q = some c) (htuple : getRelationship g q = .ok found)
    {r : ClaimRecord} (hid : findRelationshipByClaimId g c = .ok (some r))
    (hkey : r.edgeKey = intKey e.key) :
    (r.identityTuple = q.identityTuple → HasKey q e →
        resolveClaimTarget g q = .ok ⟨some r, some "claim_id"⟩) ∧
      (¬(r.identityTuple = q.identityTuple ∧ HasKey q e) →
        ∃ err, resolveClaimTarget g q = .error err ∧ err.isConflict = true) := by
  unfold resolveClaimTarget HasKey
  rw [htuple, h]
  simp only [bind, Except.bind, hid]
  by_cases hsame : r.identityTuple = q.identityTuple
  · simp only [hsame, ne_eq, not_true_eq_false, if_false, true_and]
    cases hq : q.edgeKey with
    | none =>
      constructor
      · intro _ _
        rfl
      · intro hnot
        exact absurd (by simp) hnot
    | some k =>
      simp only [Option.some.injEq, forall_eq', hkey, intKey_eq_iff]
      constructor
      · intro _ hk
        simp only [hk, not_true_eq_false, if_false]
        rfl
      · intro hk
        simp only [hk, not_false_eq_true, if_true]
        exact ⟨_, rfl, rfl⟩
  · simp only [hsame, ne_eq, not_false_eq_true, if_true]
    constructor
    · intro hcon
      exact absurd hcon id
    · intro _
      exact ⟨_, rfl, rfl⟩

end

/-- An edge that agrees with every part of the request. -/
structure Agrees (g : EntityGraph) (q : ClaimRequest) (e : EdgeData) : Prop where
  mem : e ∈ g.edges
  tuple : OfTuple q e
  key : HasKey q e
  claim : ∀ c, suppliedId q = some c → e.claimId = some c

/-- What the resolver promises. A request with an unknown claim id and a key that no
edge of its tuple has is left open. -/
structure ResolvesExactly (g : EntityGraph) (q : ClaimRequest) : Prop where
  sound : ∀ t r, resolveClaimTarget g q = .ok t → t.relationship = some r →
    ∃ e, Agrees g q e ∧ r = recordOf q e
  withoutId : suppliedId q = none → ∃ t, resolveClaimTarget g q = .ok t ∧
    (t.relationship = none ↔ ∀ e ∈ g.edges, ¬(OfTuple q e ∧ HasKey q e))
  agreeing : ∀ c, suppliedId q = some c → ∀ e ∈ g.edges, e.claimId = some c → SpelledAs q e →
    HasKey q e → resolveClaimTarget g q = .ok ⟨some (recordOf q e), some "claim_id"⟩
  contradicting : ∀ c, suppliedId q = some c → ∀ e ∈ g.edges, e.claimId = some c →
    ¬(SpelledAs q e ∧ HasKey q e) →
      ∃ err, resolveClaimTarget g q = .error err ∧ err.isConflict = true
  stale : ∀ c, suppliedId q = some c → (∀ e ∈ g.edges, e.claimId ≠ some c) →
    (∃ e ∈ g.edges, OfTuple q e ∧ HasKey q e) →
      ∃ err, resolveClaimTarget g q = .error err ∧ err.isConflict = true
  gone : ∀ c, suppliedId q = some c → (∀ e ∈ g.edges, e.claimId ≠ some c) →
    (∀ e ∈ g.edges, ¬OfTuple q e) → resolveClaimTarget g q = .ok ⟨none, some "claim_id"⟩

/-- On a graph with an exact claim-id index and readable edges. -/
theorem claim_target_resolves (g : EntityGraph) (hg : EdgesIndexed g) (hr : Readable g)
    (q : ClaimRequest) : ResolvesExactly g q := by
  have htuple := getRelationship_spec hr q
  have hfound : ∃ found, getRelationship g q = .ok found := by
    rcases htuple with ⟨h, _⟩ | ⟨_, _, _, _, h⟩ <;> exact ⟨_, h⟩
  have ⟨found, hfound⟩ := hfound
  constructor
  case sound =>
    intro t r hok hsome
    cases hid : suppliedId q with
    | none =>
      rw [resolve_without_id hid hfound, Except.ok.injEq] at hok
      subst hok
      rcases htuple with ⟨h, _⟩ | ⟨e, he, hof, hkey, h⟩
      · rw [h, Except.ok.injEq] at hfound
        rw [← hfound] at hsome
        cases hsome
      · rw [h, Except.ok.injEq] at hfound
        rw [← hfound, Option.some.injEq] at hsome
        refine ⟨e, ⟨he, hof, hkey, ?_⟩, hsome.symm⟩
        intro c hc
        rw [hid] at hc
        cases hc
    | some c =>
      by_cases hknown : ∃ e ∈ g.edges, e.claimId = some c
      · have ⟨e, he, hc⟩ := hknown
        have ⟨x, hx, hkey, hspelled, hrecord⟩ :=
          findRelationshipByClaimId_known (q := q) hg hr he hc
        have ⟨hagree, hconflict⟩ := resolve_known_id hid hfound hx hkey
        by_cases hboth : x.identityTuple = q.identityTuple ∧ HasKey q e
        · rw [hagree hboth.1 hboth.2, Except.ok.injEq] at hok
          rw [← hok, Option.some.injEq] at hsome
          have hspell := hspelled.mp hboth.1
          refine ⟨e, ⟨he, ofTuple_of_spelledAs hspell, hboth.2, ?_⟩, ?_⟩
          · intro d hd
            rw [hid] at hd
            exact hd ▸ hc
          · rw [← hsome, hrecord hspell]
        · have ⟨err, herr, _⟩ := hconflict hboth
          rw [herr] at hok
          cases hok
      · have hunknown : ∀ e ∈ g.edges, e.claimId ≠ some c :=
          fun e he hc => hknown ⟨e, he, hc⟩
        have hnone := findRelationshipByClaimId_unknown hg hunknown
        cases found with
        | some live =>
          rw [resolve_stale_id hid hfound hnone] at hok
          cases hok
        | none =>
          rw [resolve_gone_id hid hfound hnone] at hok
          cases hok
          cases hsome
  case withoutId =>
    intro hid
    refine ⟨_, resolve_without_id hid hfound, ?_⟩
    simp only
    rcases htuple with ⟨h, hnone⟩ | ⟨e, he, hof, hkey, h⟩
    · rw [h, Except.ok.injEq] at hfound
      rw [← hfound]
      simpa using hnone
    · rw [h, Except.ok.injEq] at hfound
      rw [← hfound]
      constructor
      · intro hcon
        cases hcon
      · intro hnone
        exact absurd ⟨hof, hkey⟩ (hnone e he)
  case agreeing =>
    intro c hid e he hc hspell hkey
    have ⟨x, hx, hxkey, hspelled, hrecord⟩ := findRelationshipByClaimId_known (q := q) hg hr he hc
    rw [(resolve_known_id hid hfound hx hxkey).1 (hspelled.mpr hspell) hkey, hrecord hspell]
  case contradicting =>
    intro c hid e he hc hnot
    have ⟨x, hx, hxkey, hspelled, _⟩ := findRelationshipByClaimId_known (q := q) hg hr he hc
    refine (resolve_known_id hid hfound hx hxkey).2 fun hboth => hnot ?_
    exact ⟨hspelled.mp hboth.1, hboth.2⟩
  case stale =>
    intro c hid hunknown hlive
    rcases htuple with ⟨_, h⟩ | ⟨e, _, _, _, h⟩
    · have ⟨e, he, hmatch⟩ := hlive
      exact absurd hmatch (h e he)
    · rw [resolve_stale_id hid h (findRelationshipByClaimId_unknown hg hunknown)]
      exact ⟨_, rfl, rfl⟩
  case gone =>
    intro c hid hunknown hgone
    rcases htuple with ⟨h, _⟩ | ⟨e, he, hof, _, _⟩
    · exact resolve_gone_id hid h (findRelationshipByClaimId_unknown hg hunknown)
    · exact absurd hof (hgone e he)

/-- A graph is given one dependency, CLM-1. -/
def dependency : Operation :=
  .addRelationship
    { relationshipType := "depends_on", fromType := "Service", fromId := "a",
      toType := "Service", toId := "b", claimId := some "CLM-1" }

def dependencyGraph : EntityGraph := dependency.apply {}

theorem dependencyGraph_indexed : EdgesIndexed dependencyGraph := by
  have hadmissible : Admissible {} dependency := trivial
  exact (indexed_apply indexed_empty hadmissible).toEdgesIndexed

theorem dependency_resolves :
    ResolvesExactly dependencyGraph
      { relationshipType := "depends_on", fromType := "Service", fromId := "a",
        toType := "Service", toId := "b", claimId := some " CLM-1", edgeKey := some 0 } := by
  refine claim_target_resolves dependencyGraph dependencyGraph_indexed ?_ _
  have hspelled : dependencyGraph.edges.all (fun e => e.identity.isSome) = true := by
    decide +kernel
  have hnamed : dependencyGraph.edges.all (fun e => !e.claimId.any blank) = true := by
    decide +kernel
  constructor
  · intro e he hnone
    have h := List.all_eq_true.mp hspelled e he
    rw [hnone] at h
    cases h
  · intro e he c hc
    have h := List.all_eq_true.mp hnamed e he
    rw [hc] at h
    simpa using h

/-- The rule that a reference to what no longer exists is refused like one that
contradicts itself. -/
def RefusesWhatIsGone (g : EntityGraph) (q : ClaimRequest) : Prop :=
  (∃ err, resolveClaimTarget g q = .error err) ↔
    (∃ c e, suppliedId q = some c ∧ e ∈ g.edges ∧ e.claimId = some c ∧
        ¬(SpelledAs q e ∧ HasKey q e)) ∨
      (∃ c, suppliedId q = some c ∧ ∀ e ∈ g.edges, e.claimId ≠ some c) ∨
      ∃ k, q.edgeKey = some k ∧ ∀ e ∈ g.edges, e.key ≠ .int k

/-- An unknown claim id without a live tuple is an unresolved target, not a conflict. -/
theorem unknown_claim_is_unresolved :
    ¬RefusesWhatIsGone dependencyGraph
      { relationshipType := "depends_on", fromType := "Service", fromId := "b",
        toType := "Service", toId := "a", claimId := some "CLM-9" } := by
  set q : ClaimRequest :=
    { relationshipType := "depends_on", fromType := "Service", fromId := "b",
      toType := "Service", toId := "a", claimId := some "CLM-9" } with hq
  have hid : suppliedId q = some "CLM-9" := by
    rw [hq]
    decide +kernel
  have hunknown : ∀ e ∈ dependencyGraph.edges, e.claimId ≠ some "CLM-9" := by decide +kernel
  have htuple : getRelationship dependencyGraph q = .ok none := by
    have hnone : dependencyGraph.findRelationshipEdge q.fromType q.fromId q.toType q.toId
        q.relationshipType q.edgeKey = none := by
      rw [hq]
      decide +kernel
    rw [getRelationship, hnone]
  have hreturns := resolve_gone_id hid htuple
    (findRelationshipByClaimId_unknown dependencyGraph_indexed hunknown)
  intro hrule
  have ⟨err, herr⟩ := hrule.mpr (.inr (.inl ⟨"CLM-9", hid, hunknown⟩))
  rw [hreturns] at herr
  cases herr

end Cruxible.ClaimTargets

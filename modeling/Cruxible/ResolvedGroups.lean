import Cruxible.FreeWrites
import Cruxible.GroupRequests

/-!
# Resolving a group that others are writing

The expected version of a resolution is compared with a copy of the group that
was read before the transaction, and a rewrite or a withdrawal saves a copy read
before its own. When no other request wrote the group in between, the copy is
the stored group: the resolution then settles the version that its caller named,
and a settled group is never written again. When one did, the resolution settles
a version that nobody reviewed, and a rewrite reopens a settled group.
-/
namespace Cruxible.ResolvedGroups
open JsonValue PythonDict KeyedTable AssertionState Fallible Cruxible.Graph PropertyValidation
open GraphOperations DirectWrites GovernedWrites GroupStore GroupRequests InFlight

abbrev GroupCommit := Commit Tables Plan String

/-- The group of which a plan carries a copy. -/
def Plan.copied : Plan → Option String
  | .propose plan => plan.copied
  | .resolve _ target => some target.group.groupId
  | .directWrite _ => none

/-- The id that a creation mints. -/
def Plan.minted : Plan → Option String
  | .propose (.create c) => some c.group.groupId
  | _ => none

variable {requests : Nat → Request} {c : GroupCommit} {r : ResolveRequest} {target : ResolveTarget}
  {g : String} {row : CandidateGroup}

theorem target_stored (hmade : MadeFor groupSystem groupView (requests c.request) c.plan c.since
    c.before) (hplan : c.plan = .resolve r target) (hquiet : target.group.groupId ∉ c.since) :
    target.group.groupId = r.groupId ∧ c.before.getGroup r.groupId = some target.group ∧
      target.members = c.before.getMembers r.groupId ∧
      (target.group.status = .pendingReview ∨ target.group.status = .applying) := by
  obtain ⟨origin, hread, hagree⟩ := hmade
  change (requests c.request).read origin = .ok c.plan at hread
  rw [hplan] at hread
  obtain ⟨hget, hmembers, hstatus⟩ := ResolveRequest.load_ok (Request.read_resolve hread)
  have hkey : target.group.groupId = r.groupId := Table.key_of_get? hget
  have hview := hagree r.groupId (hkey ▸ hquiet)
  have hrow : origin.getGroup r.groupId = c.before.getGroup r.groupId := congrArg Prod.fst hview
  have hstored : origin.getMembers r.groupId = c.before.getMembers r.groupId :=
    congrArg Prod.snd hview
  exact ⟨hkey, hrow ▸ hget, hmembers.trans hstored, hstatus⟩

theorem copied_pending (hmade : MadeFor groupSystem groupView (requests c.request) c.plan c.since
    c.before) {plan : ProposalPlan} (hplan : c.plan = .propose plan)
    (hcopied : plan.copied = some g) (hquiet : g ∉ c.since) :
    ∃ row, c.before.getGroup g = some row ∧ row.status = .pendingReview := by
  obtain ⟨origin, hread, hagree⟩ := hmade
  change (requests c.request).read origin = .ok c.plan at hread
  rw [hplan] at hread
  obtain ⟨p, hp⟩ := Request.read_propose hread
  have hrow : origin.getGroup g = c.before.getGroup g := congrArg Prod.fst (hagree g hquiet)
  rw [← hrow]
  exact Proposal.plan_copied hp hcopied

def dependency (from_ to_ : String) : CandidateMember :=
  { relationshipType := "depends_on", fromType := "Service", fromId := from_, toType := "Service",
    toId := to_ }

/-- Three services and one pending group that proposes `a → b`. -/
def pendingTables : Tables where
  groups := Table.put ∅ { groupId := "GRP-1", relationshipType := "depends_on", signature := "s",
                          memberCount := 1 }
  members := Dict.ofList [("GRP-1", [dependency "a" "b"])]
  graph := { nodes := Dict.ofList [FreeWrites.service "a" none, FreeWrites.service "b" none,
                                   FreeWrites.service "c" none] }

def resolution (action : ResolutionAction) (resolutionId : String) : ResolveRequest where
  groupId := "GRP-1"
  action := action
  expectedPendingVersion := 1
  w := FreeWrites.plainEnvironment.w
  guards := FreeWrites.plainEnvironment.guards
  mintedResolutionId := resolutionId
  mintClaimId := fun _ => "CLM-1"

/-- A refresh of the pending group that proposes `a → c` instead. -/
def refresh : Proposal where
  relationshipType := "depends_on"
  signature := "s"
  members := [dependency "a" "c"]
  mintedGroupId := "GRP-2"
  distinct := by decide

/-- An approval of the pending group, and the refresh. -/
def reviewAndRefresh (action : ResolutionAction) : Nat → Request
  | 0 => .resolve (resolution action "RES-1")
  | _ => .propose refresh

/-- The group that a resolution meets is unresolved, has the version that its
caller expects, and has the members whose edges it writes. -/
def SettlesExpected (c : GroupCommit) : Prop :=
  match c.plan with
  | .resolve r target =>
      (∃ row ∈ c.before.getGroup r.groupId,
        (row.status = .pendingReview ∨ row.status = .applying) ∧
          row.pendingVersion = r.expectedPendingVersion) ∧
      target.members = c.before.getMembers r.groupId
  | _ => True

instance : DecidablePred SettlesExpected := fun c =>
  match c with
  | ⟨_, .resolve _ _, _, _, _⟩ => inferInstanceAs (Decidable (_ ∧ _))
  | ⟨_, .propose _, _, _, _⟩ => .isTrue trivial
  | ⟨_, .directWrite _, _, _, _⟩ => .isTrue trivial

/-- The graph that a resolution leaves, from the members stored with the row. -/
def WritesStoredMembers (c : GroupCommit) : Prop :=
  match c.plan with
  | .resolve r target =>
      match r.action with
      | .reject => c.after.graph = c.before.graph
      | .approve => ∃ row ∈ c.before.getGroup r.groupId, ∃ id,
          approveGroupEdges r.w r.guards c.before.graph row.relationshipType row.groupId id
            (r.approvalMembers { group := row, members := c.before.getMembers r.groupId,
                                 isRetry := target.isRetry })
            r.stampExisting r.call = .ok c.after.graph
  | _ => True

/-- In every interleaving, a resolution whose group no other request wrote since
it was loaded commits only against an unresolved group of the expected version,
and writes the edges of the members stored for that version. -/
theorem resolution_settles_the_expected_version (requests : Nat → Request) (t : Tables)
    (schedule : List Step) (c : GroupCommit)
    (hc : c ∈ (run groupSystem requests (idle t) schedule).log)
    (hquiet : ∀ g, Plan.copied c.plan = some g → g ∉ c.since) :
    SettlesExpected c ∧ WritesStoredMembers c := by
  obtain ⟨hmade, hcommit⟩ :=
    (current_run groupSystem_framed t schedule : Current _ _ requests _).log c hc
  change c.plan.commit c.before = .ok c.after at hcommit
  cases hplan : c.plan with
  | propose plan => simp [SettlesExpected, WritesStoredMembers, hplan]
  | directWrite d => simp [SettlesExpected, WritesStoredMembers, hplan]
  | resolve r target =>
      have hgroup := hquiet target.group.groupId (by rw [hplan]; rfl)
      obtain ⟨-, hrow, hmembers, hstatus⟩ := target_stored hmade hplan hgroup
      rw [hplan] at hcommit
      obtain ⟨hversion, hresult⟩ := ResolveRequest.commit_ok hcommit
      constructor
      · simp only [SettlesExpected, hplan]
        exact ⟨⟨target.group, hrow, hstatus, hversion⟩, hmembers⟩
      · simp only [WritesStoredMembers, hplan]
        rcases hresult with ⟨haction, hreject⟩ | ⟨haction, happrove⟩
        · rw [haction]
          obtain ⟨-, hafter⟩ := ResolveRequest.reject_ok hreject
          simp only
          rw [hafter]
          exact graph_updateRow _ _ _
        · rw [haction]
          obtain ⟨a, u, id, graph, -, hedges, hafter⟩ := ResolveRequest.approve_ok happrove
          have hgraph : c.after.graph = graph := by
            rw [hafter]
            obtain ⟨resolutions, hconfirm, -⟩ :=
              updateResolution_eq { u with graph := graph } id (fun r => { r with confirmed := true })
            unfold confirmApproval Tables.confirmResolution
            rw [hconfirm]
            exact graph_updateRow _ _ _
          simp only
          rw [hgraph]
          refine ⟨target.group, hrow, id, ?_⟩
          rw [← hmembers]
          exact hedges

/-- The approval alone settles version 1 and writes `a → b`. -/
theorem lone_resolution_settles_the_expected_version :
    (run groupSystem (reviewAndRefresh .approve) (idle pendingTables)
      [.read 0, .commit 0]).log.length = 1 ∧
    ∀ c ∈ (run groupSystem (reviewAndRefresh .approve) (idle pendingTables)
      [.read 0, .commit 0]).log, SettlesExpected c ∧ WritesStoredMembers c := by
  constructor
  · decide +kernel
  · intro c hc
    refine resolution_settles_the_expected_version _ _ _ c hc ?_
    intro g _
    have hsince : ∀ c ∈ (run groupSystem (reviewAndRefresh .approve)
        (idle pendingTables) [.read 0, .commit 0]).log, c.since = [] := by decide +kernel
    rw [hsince c hc]
    exact List.not_mem_nil

/-- The refresh commits between the reads and the transaction of the approval:
the approval of version 1 settles version 2 and writes `a → b`, which the stored
group no longer proposes. -/
theorem overtaken_resolution_settles_another_version :
    ¬(∀ c ∈ (run groupSystem (reviewAndRefresh .approve)
      (idle pendingTables) [.read 0, .read 1, .commit 1, .commit 0]).log, SettlesExpected c) ∧
    (let t := (run groupSystem (reviewAndRefresh .approve)
      (idle pendingTables) [.read 0, .read 1, .commit 1, .commit 0]).store
    (t.getGroup "GRP-1").map (fun g => (g.status, g.pendingVersion)) = some (.resolved, 2) ∧
      t.getMembers "GRP-1" = [dependency "a" "c"] ∧
      (t.graph.getRelationship "Service" "a" "Service" "b" "depends_on").isSome = true) := by
  decide +kernel

/-- No other request wrote the copied group since it was read, and a minted group
id is new. -/
structure Undisturbed (c : GroupCommit) : Prop where
  copied : ∀ g, Plan.copied c.plan = some g → g ∉ c.since
  minted : ∀ g, Plan.minted c.plan = some g → c.before.getGroup g = none

instance : DecidablePred Undisturbed := fun c =>
  decidable_of_iff ((∀ g ∈ Plan.copied c.plan, g ∉ c.since) ∧
      ∀ g ∈ Plan.minted c.plan, c.before.getGroup g = none)
    ⟨fun h => ⟨h.1, h.2⟩, fun h => ⟨h.copied, h.minted⟩⟩

variable {t : Tables}

theorem concurrent_pending {d : Creation} {g : CandidateGroup} (hg : d.concurrent t = some g)
    (hnew : t.getGroup d.group.groupId = none) (hrow : t.getGroup g.groupId = some row) :
    row.status = .pendingReview := by
  obtain ⟨hfound, hstatus, -⟩ := findPendingGroup_some hg
  by_cases hid : g.groupId = d.group.groupId
  · rw [hid, hnew] at hrow
    cases hrow
  · have hsame : (d.insert t).1.getGroup g.groupId = t.getGroup g.groupId :=
      congrArg Prod.fst ((d.insert_frame t).1 g.groupId hid)
    rw [hsame, hrow] at hfound
    rw [Option.some.inj hfound]
    exact hstatus

theorem written_unresolved (hmade : MadeFor groupSystem groupView (requests c.request) c.plan
    c.since c.before) (hquiet : Undisturbed c) (hg : g ∈ c.plan.writes c.before)
    (hrow : c.before.getGroup g = some row) : row.status ≠ .resolved := by
  have hopen : ∀ {status : GroupStatus},
      status = .pendingReview ∨ status = .applying → status ≠ .resolved := by
    rintro status (rfl | rfl) <;> exact nofun
  cases hplan : c.plan with
  | propose plan =>
    have hpending : plan.copied = some g → row.status ≠ .resolved := by
      intro hcopied
      have hcopy : Plan.copied c.plan = some g := by
        rw [hplan]
        exact hcopied
      obtain ⟨row', hrow', hstatus⟩ :=
        copied_pending hmade hplan hcopied (hquiet.copied g hcopy)
      rw [hrow] at hrow'
      rw [Option.some.inj hrow', hstatus]
      exact nofun
    rw [hplan] at hg
    cases plan with
    | nothing => cases hg
    | withdraw pending
    | rewrite saved members => exact hpending (congrArg some (List.mem_singleton.mp hg).symm)
    | create d =>
      have hnew := hquiet.minted d.group.groupId (by rw [hplan]; rfl)
      rcases List.mem_cons.mp hg with rfl | hg
      · rw [hnew] at hrow
        cases hrow
      · obtain ⟨concurrent, hconcurrent, rfl⟩ := by simpa using hg
        rw [concurrent_pending hconcurrent hnew hrow]
        exact nofun
  | resolve r target =>
    rw [hplan] at hg
    obtain rfl := List.mem_singleton.mp hg
    have hgroup := hquiet.copied target.group.groupId (by rw [hplan]; rfl)
    obtain ⟨hkey, hstored, -, hstatus⟩ := target_stored hmade hplan hgroup
    rw [hkey, hstored] at hrow
    rw [← Option.some.inj hrow]
    exact hopen hstatus
  | directWrite d =>
    rw [hplan] at hg
    obtain ⟨row', hrow', hisOpen⟩ := DirectWrite.conflicts_open hg
    rw [hrow] at hrow'
    rw [Option.some.inj hrow']
    exact hopen (by simpa [CandidateGroup.isOpen] using hisOpen)

section Confirmed
variable {t t' : Tables} {id : String}

theorem isConfirmed_iff :
    t.isConfirmed id = true ↔ ∃ r, t.getResolution id = some r ∧ r.confirmed = true := by
  unfold Tables.isConfirmed
  cases t.getResolution id with
  | none => simp
  | some r => simp

theorem isConfirmed_congr (h : t'.getResolution id = t.getResolution id) :
    t'.isConfirmed id = t.isConfirmed id := by
  unfold Tables.isConfirmed
  rw [h]

/-- The resolution that a request inserts or confirms is the only one that may
become confirmed, and none ceases to be. -/
def ConfirmsAtMost (fresh : Option String) (t t' : Tables) : Prop :=
  ∀ id, (t.isConfirmed id = true → t'.isConfirmed id = true) ∧
    (t'.isConfirmed id = true → t.isConfirmed id = true ∨ fresh = some id)

variable {fresh : Option String}

theorem ConfirmsAtMost.of_same (h : ∀ id, t'.getResolution id = t.getResolution id) :
    ConfirmsAtMost fresh t t' := by
  intro id
  rw [isConfirmed_congr (h id)]
  exact ⟨fun hid => hid, .inl⟩

theorem ConfirmsAtMost.trans {u : Tables} (h : ConfirmsAtMost fresh t u)
    (h' : ConfirmsAtMost fresh u t') : ConfirmsAtMost fresh t t' := by
  intro id
  constructor
  · intro hid
    exact (h' id).1 ((h id).1 hid)
  · intro hid
    rcases (h' id).2 hid with hid | hfresh
    · exact (h id).2 hid
    · exact .inr hfresh

theorem confirmsAtMost_updateRow (fresh : Option String) (t : Tables) (groupId : String)
    (f : CandidateGroup → CandidateGroup) : ConfirmsAtMost fresh t (t.updateRow groupId f) :=
  .of_same (getResolution_updateRow t groupId f)

theorem confirmsAtMost_put {r : GroupResolution} (hnew : t.getResolution r.resolutionId = none) :
    ConfirmsAtMost (some r.resolutionId) t { t with resolutions := t.resolutions.put r } := by
  intro id
  by_cases hid : r.resolutionId = id
  · subst hid
    constructor
    · intro hconfirmed
      obtain ⟨row, hrow, -⟩ := isConfirmed_iff.mp hconfirmed
      rw [hnew] at hrow
      cases hrow
    · exact fun _ => .inr rfl
  · have hsame : ({ t with resolutions := t.resolutions.put r } : Tables).getResolution id =
        t.getResolution id := Table.get?_put_of_ne t.resolutions hid
    rw [isConfirmed_congr hsame]
    exact ⟨fun h => h, .inl⟩

theorem confirmsAtMost_updateResolution (t : Tables) (resolutionId : Option String)
    {f : GroupResolution → GroupResolution}
    (hf : ∀ r, r.confirmed = true → (f r).confirmed = true) :
    ConfirmsAtMost resolutionId t (t.updateResolution resolutionId f) := by
  intro id
  obtain ⟨resolutions, heq, hget⟩ := updateResolution_eq t resolutionId f
  by_cases hid : some id = resolutionId
  · constructor
    · intro hconfirmed
      obtain ⟨row, hrow, hrowConfirmed⟩ := isConfirmed_iff.mp hconfirmed
      apply isConfirmed_iff.mpr
      refine ⟨{ f row with resolutionId := row.resolutionId }, ?_, hf row hrowConfirmed⟩
      rw [heq]
      have hnow := hget id
      rw [if_pos hid, hrow] at hnow
      exact hnow
    · exact fun _ => .inr hid.symm
  · rw [isConfirmed_congr (getResolution_updateResolution_of_ne hid)]
    exact ⟨fun h => h, .inl⟩

end Confirmed

/-- The resolution that a plan confirms for the group `g`. -/
def Plan.confirms (g : String) : Plan → Option String
  | .resolve r target =>
      if target.group.groupId ≠ g then none
      else if r.action = .approve ∧ target.isRetry then target.group.resolutionId
      else some r.mintedResolutionId
  | _ => none

variable {t' : Tables}

theorem resolve_confirms (h : r.commit target t = .ok t') :
    ConfirmsAtMost (Plan.confirms target.group.groupId (.resolve r target)) t t' := by
  obtain ⟨-, ⟨haction, hreject⟩ | ⟨haction, happrove⟩⟩ := ResolveRequest.commit_ok h
  · obtain ⟨hnew, rfl⟩ := ResolveRequest.reject_ok hreject
    have hid : Plan.confirms target.group.groupId (.resolve r target) =
        some r.mintedResolutionId := by
      simp [Plan.confirms, haction]
    rw [hid]
    exact (confirmsAtMost_put hnew).trans (confirmsAtMost_updateRow _ _ _ _)
  · obtain ⟨a, u, id, graph, hstart, -, rfl⟩ := ResolveRequest.approve_ok happrove
    have hconfirm : ConfirmsAtMost id u (confirmApproval target.group.groupId id
        { u with graph := graph }) := by
      have hgraph : ConfirmsAtMost id u { u with graph := graph } := .of_same fun _ => rfl
      have hupdate : ConfirmsAtMost id { u with graph := graph }
          (Tables.confirmResolution { u with graph := graph } id) :=
        confirmsAtMost_updateResolution _ id fun _ _ => rfl
      exact (hgraph.trans hupdate).trans (confirmsAtMost_updateRow _ _ _ _)
    rcases ResolveRequest.startApproval_ok hstart with
      ⟨hretry, rfl, rfl⟩ | ⟨prior, hretry, rfl, hnew, rfl⟩
    · have hid : Plan.confirms target.group.groupId (.resolve r target) =
          target.group.resolutionId := by
        simp [Plan.confirms, haction, hretry]
      have hstamp : ConfirmsAtMost target.group.resolutionId t
          (t.stampResolutionReceiptId target.group.resolutionId r.call.receiptId) :=
        confirmsAtMost_updateResolution t _ fun _ hr => hr
      rw [hid]
      exact hstamp.trans hconfirm
    · have hid : Plan.confirms target.group.groupId (.resolve r target) =
          some r.mintedResolutionId := by
        simp [Plan.confirms, hretry]
      rw [hid]
      exact ((confirmsAtMost_put hnew).trans (confirmsAtMost_updateRow _ _ _ _)).trans hconfirm

theorem commit_confirms {p : Plan} (h : p.commit t = .ok t') :
    ∃ g, ConfirmsAtMost (Plan.confirms g p) t t' := by
  unfold Plan.commit at h
  split at h
  · exact ⟨"", .of_same fun _ => by rw [Except.ok.inj h]⟩
  · obtain rfl := Except.ok.inj h
    exact ⟨"", confirmsAtMost_updateRow _ _ _ _⟩
  · exact ⟨"", .of_same (commitRewrite_ok h).2.2⟩
  · rename_i d
    refine ⟨"", .of_same fun id => ?_⟩
    have hinsert := (d.insert_frame t).2 id
    rcases Creation.commit_cases h with rfl | ⟨g, row, members, -, -, hrewrite⟩
    · exact hinsert
    · exact ((commitRewrite_ok hrewrite).2.2 id).trans hinsert
  · rename_i r target
    exact ⟨target.group.groupId, resolve_confirms h⟩
  · exact ⟨"", .of_same (DirectWrite.commit_ok h).2⟩

theorem resolve_settles (h : r.commit target t = .ok t')
    (hrow : t.getGroup target.group.groupId = some row) :
    ∃ row', t'.getGroup target.group.groupId = some row' ∧ row'.status = .resolved := by
  obtain ⟨-, ⟨-, hreject⟩ | ⟨-, happrove⟩⟩ := ResolveRequest.commit_ok h
  · obtain ⟨-, rfl⟩ := ResolveRequest.reject_ok hreject
    unfold Tables.updateGroupStatus
    rw [getGroup_updateRow, if_pos rfl]
    exact ⟨_, congrArg (Option.map _) hrow, rfl⟩
  · obtain ⟨a, u, id, graph, hstart, -, rfl⟩ := ResolveRequest.approve_ok happrove
    have hstarted : ∃ row', u.getGroup target.group.groupId = some row' := by
      rcases ResolveRequest.startApproval_ok hstart with ⟨-, -, rfl⟩ | ⟨prior, -, -, -, rfl⟩
      · have hview := groupView_updateResolution t target.group.resolutionId
          (fun q => { q with receiptId := q.receiptId.or r.call.receiptId }) target.group.groupId
        exact ⟨row, (congrArg Prod.fst hview).trans hrow⟩
      · unfold Tables.updateGroupStatus
        rw [getGroup_updateRow, if_pos rfl]
        exact ⟨_, congrArg (Option.map _) hrow⟩
    obtain ⟨row', hrow'⟩ := hstarted
    have hview := groupView_updateResolution { u with graph := graph } id
      (fun q => { q with confirmed := true }) target.group.groupId
    have hget : (Tables.confirmResolution { u with graph := graph } id).getGroup
        target.group.groupId = some row' := (congrArg Prod.fst hview).trans hrow'
    unfold confirmApproval Tables.updateGroupStatus
    rw [getGroup_updateRow, if_pos rfl, hget]
    exact ⟨_, rfl, rfl⟩

/-- Resolved groups keep their row and their members, and confirmed resolutions
stay confirmed. -/
structure KeepsResolved (t t' : Tables) : Prop where
  groups : ∀ g row, t.getGroup g = some row → row.status = .resolved →
    groupView g t' = groupView g t
  confirmed : ∀ id, t.isConfirmed id = true → t'.isConfirmed id = true

theorem KeepsResolved.refl (t : Tables) : KeepsResolved t t where
  groups := fun _ _ _ _ => rfl
  confirmed := fun _ h => h

theorem KeepsResolved.trans {u v : Tables} (h : KeepsResolved t u) (h' : KeepsResolved u v) :
    KeepsResolved t v where
  groups := by
    intro g row hrow hstatus
    have hview := h.groups g row hrow hstatus
    have hrow' : u.getGroup g = some row := (congrArg Prod.fst hview).trans hrow
    exact (h'.groups g row hrow' hstatus).trans hview
  confirmed := fun id hid => h'.confirmed id (h.confirmed id hid)

/-- What the log of a run records of a commit, and the condition on it. -/
def Sound (requests : Nat → Request) (c : GroupCommit) : Prop :=
  MadeFor groupSystem groupView (requests c.request) c.plan c.since c.before ∧
    c.plan.commit c.before = .ok c.after ∧ Undisturbed c

theorem Sound.keepsResolved (h : Sound requests c) : KeepsResolved c.before c.after where
  groups := by
    intro g row hrow hstatus
    apply groupSystem_framed c.plan c.before c.after h.2.1 g
    intro hwritten
    exact written_unresolved h.1 h.2.2 hwritten hrow hstatus
  confirmed := by
    obtain ⟨g, hconfirms⟩ := commit_confirms h.2.1
    exact fun id => (hconfirms id).1

/-- The resolutions that the commits of a log confirmed for one group. -/
def confirmations (g : String) (log : List GroupCommit) : List String :=
  log.filterMap fun c => Plan.confirms g c.plan

/-- At most one confirmation so far, and after it the group is resolved. -/
structure ConfirmedOnce (g : String) (log : List GroupCommit) (t : Tables) : Prop where
  once : (confirmations g log).length ≤ 1
  settled : confirmations g log ≠ [] → ∃ row, t.getGroup g = some row ∧ row.status = .resolved

theorem ConfirmedOnce.commit {log : List GroupCommit} (hlog : ConfirmedOnce g log c.before)
    (hc : Sound requests c) : ConfirmedOnce g (log ++ [c]) c.after := by
  have happend : confirmations g (log ++ [c]) =
      confirmations g log ++ (Plan.confirms g c.plan).toList := by
    unfold confirmations
    rw [List.filterMap_append]
    cases hconfirms : Plan.confirms g c.plan <;> simp [hconfirms]
  cases hconfirms : Plan.confirms g c.plan with
  | none =>
    rw [hconfirms, Option.toList_none, List.append_nil] at happend
    constructor
    · rw [happend]
      exact hlog.once
    · intro hne
      rw [happend] at hne
      obtain ⟨row, hrow, hstatus⟩ := hlog.settled hne
      have hkeep := hc.keepsResolved.groups g row hrow hstatus
      exact ⟨row, (congrArg Prod.fst hkeep).trans hrow, hstatus⟩
  | some id =>
    cases hplan : c.plan with
    | propose plan | directWrite d =>
      rw [hplan] at hconfirms
      cases hconfirms
    | resolve r target =>
      have hgroup : target.group.groupId = g := by
        by_contra hne
        rw [hplan] at hconfirms
        simp [Plan.confirms, hne] at hconfirms
      have hquiet := hc.2.2.copied target.group.groupId (by rw [hplan]; rfl)
      obtain ⟨hkey, hstored, -, hstatus⟩ := target_stored hc.1 hplan hquiet
      rw [← hkey, hgroup] at hstored
      have hfirst : confirmations g log = [] := by
        by_contra hne
        obtain ⟨row, hrow, hresolved⟩ := hlog.settled hne
        rw [hstored] at hrow
        rw [← Option.some.inj hrow] at hresolved
        rcases hstatus with hstatus | hstatus <;> rw [hresolved] at hstatus <;> cases hstatus
      constructor
      · rw [happend, hfirst, hconfirms]
        exact le_refl 1
      · intro _
        have hcommit := hc.2.1
        rw [hplan] at hcommit
        have hsettled := resolve_settles hcommit (hgroup ▸ hstored)
        rw [hgroup] at hsettled
        exact hsettled

/-- In every interleaving of undisturbed commits, a group that is stored as
resolved under a confirmed resolution keeps its row and its members for ever, the
resolution stays confirmed, and at most one resolution is confirmed for a group. -/
theorem resolved_groups_are_final (requests : Nat → Request) (t : Tables)
    (earlier later : List Step)
    (hquiet : ∀ c ∈ (run groupSystem requests (idle t) (earlier ++ later)).log, Undisturbed c)
    (g : String) :
    (∀ row id, (run groupSystem requests (idle t) earlier).store.getGroup g = some row →
      row.status = .resolved → row.resolutionId = some id →
      (run groupSystem requests (idle t) earlier).store.isConfirmed id = true →
      (run groupSystem requests (idle t) (earlier ++ later)).store.getGroup g = some row ∧
      (run groupSystem requests (idle t) (earlier ++ later)).store.getMembers g =
        (run groupSystem requests (idle t) earlier).store.getMembers g ∧
      (run groupSystem requests (idle t) (earlier ++ later)).store.isConfirmed id = true) ∧
    (confirmations g (run groupSystem requests (idle t) (earlier ++ later)).log).length ≤ 1 := by
  have hsound : ∀ c ∈ (run groupSystem requests (idle t) (earlier ++ later)).log,
      Sound requests c := by
    intro c hc
    have hcurrent : Current groupSystem groupView requests _ :=
      current_run groupSystem_framed t (earlier ++ later)
    obtain ⟨hmade, hcommit⟩ := hcurrent.log c hc
    exact ⟨hmade, hcommit, hquiet c hc⟩
  constructor
  · intro row id hrow hstatus _ hconfirmed
    have hkeeps := run_related groupSystem requests KeepsResolved.refl
      (fun _ _ _ => KeepsResolved.trans) (idle t) earlier later
      fun c hc => (hsound c hc).keepsResolved
    have hview := hkeeps.groups g row hrow hstatus
    exact ⟨(congrArg Prod.fst hview).trans hrow, congrArg Prod.snd hview,
      hkeeps.confirmed id hconfirmed⟩
  · have honce := run_log_invariant groupSystem requests (ConfirmedOnce g) (Sound requests)
      (fun log c hlog hc => hlog.commit hc) (w := idle t)
      ⟨Nat.zero_le 1, fun hne => absurd rfl hne⟩ (earlier ++ later) hsound
    exact honce.once

/-- The group is rejected, and the refresh that follows creates another one. -/
theorem rejected_group_outlives_a_refresh :
    (run groupSystem (reviewAndRefresh .reject) (idle pendingTables)
      [.read 0, .commit 0, .read 1, .commit 1]).log.length = 2 ∧
    (run groupSystem (reviewAndRefresh .reject) (idle pendingTables)
      [.read 0, .commit 0, .read 1, .commit 1]).store.getGroup "GRP-1" =
      (run groupSystem (reviewAndRefresh .reject) (idle pendingTables)
        [.read 0, .commit 0]).store.getGroup "GRP-1" := by
  constructor
  · decide +kernel
  · have hfinal := (resolved_groups_are_final (reviewAndRefresh .reject) pendingTables
      [.read 0, .commit 0] [.read 1, .commit 1] (by decide +kernel) "GRP-1").1
    have hrow : (run groupSystem (reviewAndRefresh .reject) (idle pendingTables)
        [.read 0, .commit 0]).store.getGroup "GRP-1" =
        some { groupId := "GRP-1", relationshipType := "depends_on", signature := "s",
               memberCount := 1, status := .resolved, resolutionId := some "RES-1" } := by
      decide +kernel
    rw [hrow]
    exact (hfinal _ "RES-1" hrow rfl rfl (by decide +kernel)).1

/-- The refresh was read before the rejection and commits after it: the rejected
group is pending again, without its resolution and with other members. Of two
rejections in flight both commit. -/
theorem overtaken_refresh_reopens_a_rejected_group :
    (let t := (run groupSystem (reviewAndRefresh .reject) (idle pendingTables)
      [.read 1, .read 0, .commit 0]).store
    (t.getGroup "GRP-1").map (fun g => (g.status, g.resolutionId)) =
        some (.resolved, some "RES-1") ∧
      t.isConfirmed "RES-1" = true ∧ t.getMembers "GRP-1" = [dependency "a" "b"]) ∧
    (let t := (run groupSystem (reviewAndRefresh .reject) (idle pendingTables)
      [.read 1, .read 0, .commit 0, .commit 1]).store
    (t.getGroup "GRP-1").map (fun g => (g.status, g.resolutionId)) =
        some (.pendingReview, none) ∧
      t.getMembers "GRP-1" = [dependency "a" "c"]) ∧
    confirmations "GRP-1" (run groupSystem
      (fun i => .resolve (resolution .reject (if i = 0 then "RES-1" else "RES-2")))
      (idle pendingTables) [.read 0, .read 1, .commit 0, .commit 1]).log =
        ["RES-1", "RES-2"] := by
  decide +kernel

end Cruxible.ResolvedGroups

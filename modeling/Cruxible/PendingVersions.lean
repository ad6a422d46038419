import Cruxible.ResolvedGroups

/-!
# What a pending version identifies

A reviewer names the version of a pending group that was read. Direct writes bump
the version of the stored row; a rewrite or a withdrawal stores the version of the
copy that its proposal has read before the transaction, plus one. Where the
stored version is not past the copy's, every change of a group makes its version
larger, so that one version of a group has one content.
-/
namespace Cruxible.PendingVersions
open JsonValue PythonDict KeyedTable AssertionState Fallible Cruxible.Graph PropertyValidation
open GraphOperations DirectWrites GovernedWrites GroupStore GroupRequests InFlight ResolvedGroups

/-- The group that a withdrawal or a rewrite has copied, with the copy's version.
A rewrite carries the copy with the next version. -/
def copiedVersion : Plan → Option (String × Nat)
  | .propose (.withdraw pending) => some (pending.groupId, pending.pendingVersion)
  | .propose (.rewrite row _) => some (row.groupId, row.pendingVersion - 1)
  | _ => none

/-- The stored version is not past the copy's, and a minted group id is new. -/
structure Timely (c : GroupCommit) : Prop where
  copied : ∀ p ∈ copiedVersion c.plan, ∀ row ∈ c.before.getGroup p.1, row.pendingVersion ≤ p.2
  minted : ∀ g ∈ Plan.minted c.plan, c.before.getGroup g = none

instance : DecidablePred Timely := fun c =>
  decidable_of_iff ((∀ p ∈ copiedVersion c.plan, ∀ row ∈ c.before.getGroup p.1,
      row.pendingVersion ≤ p.2) ∧ ∀ g ∈ Plan.minted c.plan, c.before.getGroup g = none)
    ⟨fun h => ⟨h.1, h.2⟩, fun h => ⟨h.copied, h.minted⟩⟩

/-- A group whose row or members change gets a larger version. -/
def Bumps (t t' : Tables) : Prop :=
  ∀ g row, t.getGroup g = some row → groupView g t' = groupView g t ∨
    ∃ row', t'.getGroup g = some row' ∧ row.pendingVersion < row'.pendingVersion

/-- A group keeps its members, thesis and analysis state, or gets a larger
version. -/
def Identifies (t t' : Tables) : Prop :=
  ∀ g row, t.getGroup g = some row → ∃ row', t'.getGroup g = some row' ∧
    (row.pendingVersion < row'.pendingVersion ∨
      row.pendingVersion = row'.pendingVersion ∧ row.metadata = row'.metadata ∧
        t.getMembers g = t'.getMembers g)

section Relations
variable {t u t' : Tables}

theorem Bumps.refl (t : Tables) : Bumps t t := fun _ _ _ => .inl rfl

theorem Bumps.of_view (h : ∀ g, groupView g t' = groupView g t) : Bumps t t' :=
  fun g _ _ => .inl (h g)

theorem Bumps.trans (h : Bumps t u) (h' : Bumps u t') : Bumps t t' := by
  intro g row hrow
  rcases h g row hrow with hsame | ⟨mid, hmid, hlt⟩
  · have hrow' : u.getGroup g = some row := (congrArg Prod.fst hsame).trans hrow
    rcases h' g row hrow' with hsame' | hlater
    · exact .inl (hsame'.trans hsame)
    · exact .inr hlater
  · right
    rcases h' g mid hmid with hsame' | ⟨row', hrow', hlt'⟩
    · exact ⟨mid, (congrArg Prod.fst hsame').trans hmid, hlt⟩
    · exact ⟨row', hrow', by omega⟩

theorem Bumps.identifies (h : Bumps t t') : Identifies t t' := by
  intro g row hrow
  rcases h g row hrow with hsame | ⟨row', hrow', hlt⟩
  · have hget : t'.getGroup g = some row := (congrArg Prod.fst hsame).trans hrow
    exact ⟨row, hget, .inr ⟨rfl, rfl, (congrArg Prod.snd hsame).symm⟩⟩
  · exact ⟨row', hrow', .inl hlt⟩

theorem Identifies.refl (t : Tables) : Identifies t t := (Bumps.refl t).identifies

theorem Identifies.trans (h : Identifies t u) (h' : Identifies u t') : Identifies t t' := by
  intro g row hrow
  have ⟨mid, hmid, hfirst⟩ := h g row hrow
  have ⟨row', hrow', hsecond⟩ := h' g mid hmid
  use row', hrow'
  rcases hfirst with hlt | ⟨hversion, hmetadata, hmembers⟩
  · left
    rcases hsecond with hlt' | ⟨hversion', -, -⟩ <;> omega
  · rcases hsecond with hlt' | ⟨hversion', hmetadata', hmembers'⟩
    · left
      omega
    · exact .inr ⟨hversion.trans hversion', hmetadata.trans hmetadata', hmembers.trans hmembers'⟩

theorem bumps_updateRow {groupId : String} {f : CandidateGroup → CandidateGroup}
    (hf : ∀ row, t.getGroup groupId = some row → row.pendingVersion < (f row).pendingVersion) :
    Bumps t (t.updateRow groupId f) := by
  intro g row hrow
  by_cases hg : g = groupId
  · right
    subst hg
    have hget := getGroup_updateRow t g f g
    rw [if_pos rfl, hrow, Option.map_some] at hget
    exact ⟨_, hget, hf row hrow⟩
  · exact .inl (groupView_updateRow_of_ne hg)

theorem bumps_commitRewrite {row : CandidateGroup} {members : List CandidateMember}
    (hok : commitRewrite row members t = .ok t')
    (hlater : ∀ stored, t.getGroup row.groupId = some stored →
      stored.pendingVersion < row.pendingVersion) : Bumps t t' := by
  have ⟨hrows, hmembers, _⟩ := commitRewrite_ok hok
  intro g stored hstored
  by_cases hg : row.groupId = g
  · right
    have hget := hrows g
    rw [if_pos hg] at hget
    exact ⟨row, hget, hlater stored (hg ▸ hstored)⟩
  · left
    have hget := hrows g
    rw [if_neg hg] at hget
    exact Prod.ext hget (hmembers g (Ne.symm hg))

end Relations

section Transactions
variable {t t' : Tables}

theorem Proposal.plan_rewrite {p : Proposal} {row : CandidateGroup}
    {members : List CandidateMember} (h : p.plan t = .ok (.rewrite row members)) :
    0 < row.pendingVersion := by
  have ⟨pending, kept, priority, _, hrow, _⟩ := GroupRequests.Proposal.plan_stores h
  rw [hrow]
  exact Nat.succ_pos pending.pendingVersion

theorem Creation.commit_bumps {d : Creation} (hok : d.commit t = .ok t')
    (hnew : t.getGroup d.group.groupId = none) : Bumps t t' := by
  have hinsert : Bumps t (d.insert t).1 := by
    intro g row hrow
    left
    apply (d.insert_frame t).1
    intro hg
    rw [hg, hnew] at hrow
    cases hrow
  unfold Creation.commit at hok
  split_ifs at hok
  · rw [← Except.ok.inj hok]
    exact hinsert
  · split at hok
    · cases hok
    · rename_i concurrent hconcurrent
      have hstored := (findPendingGroup_some hconcurrent).1
      apply hinsert.trans
      apply bumps_commitRewrite hok
      intro stored hget
      have hsame : stored = concurrent := Option.some.inj (hget.symm.trans hstored)
      rw [hsame]
      exact Nat.lt_succ_self _

theorem DirectWrite.annotate_bumps (d : DirectWrite) (t : Tables) (groupId : String) :
    Bumps t (d.annotate t groupId) := by
  unfold DirectWrite.annotate
  split
  · exact Bumps.refl t
  · split_ifs
    · exact bumps_updateRow fun row _ => Nat.lt_succ_self _
    · exact Bumps.refl t

theorem DirectWrite.commit_bumps {d : DirectWrite} (hok : d.commit t = .ok t') : Bumps t t' := by
  have hannotated : ∀ (ids : List String) (s : Tables), Bumps s (ids.foldl d.annotate s) := by
    intro ids
    induction ids with
    | nil => exact Bumps.refl
    | cons id ids ih =>
      intro s
      exact (annotate_bumps d s id).trans (ih (d.annotate s id))
  exact (hannotated (d.conflicts t) t).trans (Bumps.of_view (DirectWrite.commit_ok hok).1)

theorem identifies_updateGroupStatus (t : Tables) (groupId : String) (status : GroupStatus)
    (resolutionId : Option String) :
    Identifies t (t.updateGroupStatus groupId status resolutionId) := by
  intro g row hrow
  have hmembers : t.getMembers g = (t.updateGroupStatus groupId status resolutionId).getMembers g :=
    (getMembers_updateRow t groupId _ g).symm
  have hget := getGroup_updateRow t groupId
    (fun g => { g with status := status, resolutionId := resolutionId.or g.resolutionId }) g
  by_cases hg : g = groupId
  · subst hg
    rw [if_pos rfl, hrow, Option.map_some] at hget
    exact ⟨_, hget, .inr ⟨rfl, rfl, hmembers⟩⟩
  · rw [if_neg hg, hrow] at hget
    exact ⟨row, hget, .inr ⟨rfl, rfl, hmembers⟩⟩

theorem identifies_updateResolution (t : Tables) (resolutionId : Option String)
    (f : GroupResolution → GroupResolution) : Identifies t (t.updateResolution resolutionId f) :=
  (Bumps.of_view (groupView_updateResolution t resolutionId f)).identifies

theorem ResolveRequest.commit_identifies {r : ResolveRequest} {target : ResolveTarget}
    (hok : r.commit target t = .ok t') : Identifies t t' := by
  rcases (ResolveRequest.commit_ok hok).2 with ⟨_, hreject⟩ | ⟨_, happrove⟩
  case inl =>
    have ⟨_, hafter⟩ := ResolveRequest.reject_ok hreject
    rw [hafter]
    have hsaved : Identifies t
        { t with resolutions := t.resolutions.put (r.resolution target.group true none) } :=
      (Bumps.of_view fun _ => rfl).identifies
    exact hsaved.trans (identifies_updateGroupStatus _ _ _ _)
  case inr =>
    have ⟨a, u, id, graph, hstart, _, hafter⟩ := ResolveRequest.approve_ok happrove
    have hstarted : Identifies t u := by
      rcases ResolveRequest.startApproval_ok hstart with ⟨_, _, hu⟩ | ⟨prior, _, _, _, hu⟩
      · rw [hu]
        exact identifies_updateResolution t _ _
      · rw [hu]
        have hsaved : Identifies t
            { t with resolutions := t.resolutions.put (r.resolution target.group false prior) } :=
          (Bumps.of_view fun _ => rfl).identifies
        exact hsaved.trans (identifies_updateGroupStatus _ _ _ _)
    have hgraph : Identifies u { u with graph := graph } := (Bumps.of_view fun _ => rfl).identifies
    rw [hafter]
    exact (hstarted.trans hgraph).trans
      ((identifies_updateResolution _ _ _).trans (identifies_updateGroupStatus _ _ _ _))

end Transactions

/-- Whether the plan resolves a group, which settles what its version names. -/
def isResolve : Plan → Bool
  | .resolve _ _ => true
  | _ => false

variable {requests : Nat → Request} {c : GroupCommit}

theorem commit_bumps
    (hmade : MadeFor groupSystem groupView (requests c.request) c.plan c.since c.before)
    (hok : c.plan.commit c.before = .ok c.after) (hc : Timely c) (hplan : isResolve c.plan = false) :
    Bumps c.before c.after := by
  have ⟨origin, hread, _⟩ := hmade
  change (requests c.request).read origin = .ok c.plan at hread
  cases c with
  | mk request plan since before after =>
    cases plan with
    | resolve r target => cases hplan
    | directWrite d => exact DirectWrite.commit_bumps hok
    | propose plan =>
      cases plan with
      | nothing =>
        have hsame : before = after := Except.ok.inj hok
        exact hsame ▸ Bumps.refl before
      | withdraw pending =>
        have hafter : commitWithdraw pending before = after := Except.ok.inj hok
        rw [← hafter]
        apply bumps_updateRow
        intro row hrow
        exact Nat.lt_succ_of_le (hc.copied _ rfl row hrow)
      | rewrite row members =>
        have ⟨p, hp⟩ := Request.read_propose hread
        have hpositive := Proposal.plan_rewrite hp
        apply bumps_commitRewrite hok
        intro stored hstored
        have hle : stored.pendingVersion ≤ row.pendingVersion - 1 := hc.copied _ rfl stored hstored
        omega
      | create d => exact Creation.commit_bumps hok (hc.minted _ rfl)

theorem commit_identifies
    (hmade : MadeFor groupSystem groupView (requests c.request) c.plan c.since c.before)
    (hok : c.plan.commit c.before = .ok c.after) (hc : Timely c) : Identifies c.before c.after := by
  cases hplan : isResolve c.plan with
  | false => exact (commit_bumps hmade hok hc hplan).identifies
  | true =>
    cases c with
    | mk request plan since before after =>
      cases plan with
      | propose plan => cases hplan
      | directWrite d => cases hplan
      | resolve r target => exact ResolveRequest.commit_identifies hok

/-- In every interleaving of proposals, resolutions and direct writes in which no
copy is behind the row that it replaces, every operation but a resolution bumps
the version of a group that it changes, and two stored states of a group with one
version have the same members, thesis and analysis state. -/
theorem pending_version_identifies_content (requests : Nat → Request) (t : Tables)
    (earlier later : List Step)
    (htimely : ∀ c ∈ (run groupSystem requests (idle t) (earlier ++ later)).log, Timely c) :
    (∀ c ∈ (run groupSystem requests (idle t) (earlier ++ later)).log,
      isResolve c.plan = false → Bumps c.before c.after) ∧
    ∀ g a b, (run groupSystem requests (idle t) earlier).store.getGroup g = some a →
      (run groupSystem requests (idle t) (earlier ++ later)).store.getGroup g = some b →
      a.pendingVersion = b.pendingVersion →
      a.metadata = b.metadata ∧
        (run groupSystem requests (idle t) earlier).store.getMembers g =
          (run groupSystem requests (idle t) (earlier ++ later)).store.getMembers g := by
  have hcurrent : Current groupSystem groupView requests _ :=
    current_run groupSystem_framed t (earlier ++ later)
  constructor
  case left =>
    intro c hc
    have ⟨hmade, hok⟩ := hcurrent.log c hc
    exact commit_bumps hmade hok (htimely c hc)
  case right =>
    intro g a b ha hb hversion
    have hrelated := run_related groupSystem requests (R := Identifies) Identifies.refl
      (fun _ _ _ => Identifies.trans) (idle t) earlier later (fun c hc => by
        have ⟨hmade, hok⟩ := hcurrent.log c hc
        exact commit_identifies hmade hok (htimely c hc))
    have ⟨row', hrow', hcases⟩ := hrelated g a ha
    have hsame : row' = b := Option.some.inj (hrow'.symm.trans hb)
    rw [hsame] at hcases
    rcases hcases with hlt | ⟨_, hmetadata, hmembers⟩
    · omega
    · exact ⟨hmetadata, hmembers⟩

/-- Another refresh of the pending group, which proposes `b → c`. -/
def otherRefresh : Proposal where
  relationshipType := "depends_on"
  signature := "s"
  members := [dependency "b" "c"]
  mintedGroupId := "GRP-3"
  distinct := by decide

def twoRefreshes : Nat → Request
  | 0 => .propose refresh
  | _ => .propose otherRefresh

/-- One refresh after the other. -/
theorem serial_refreshes_are_told_apart :
    let w := run groupSystem twoRefreshes (idle pendingTables)
      [.read 0, .commit 0, .read 1, .commit 1]
    (∀ c ∈ w.log, isResolve c.plan = false → Bumps c.before c.after) ∧
      w.store.getGroup "GRP-1" ≠ pendingTables.getGroup "GRP-1" := by
  constructor
  case left =>
    exact (pending_version_identifies_content twoRefreshes pendingTables []
      [.read 0, .commit 0, .read 1, .commit 1] (by decide +kernel)).1
  case right => decide +kernel

/-- Both refreshes have read version 1: each stores a version 2 of its own. -/
theorem overtaken_refresh_reuses_the_version :
    let first := (run groupSystem twoRefreshes (idle pendingTables)
      [.read 0, .read 1, .commit 0]).store
    let second := (run groupSystem twoRefreshes (idle pendingTables)
      ([.read 0, .read 1, .commit 0] ++ [.commit 1])).store
    (first.getGroup "GRP-1").map (·.pendingVersion) = some 2 ∧
      (second.getGroup "GRP-1").map (·.pendingVersion) = some 2 ∧
      first.getMembers "GRP-1" ≠ second.getMembers "GRP-1" := by
  decide +kernel

end Cruxible.PendingVersions

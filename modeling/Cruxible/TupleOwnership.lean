import Cruxible.ResolvedGroups

/-!
# Who owns a pending tuple

A relationship type whose proposals are identified by relationship tuples keeps
each tuple in at most one pending group. A proposal drops the tuples that other
open groups hold, as it reads them before its transaction; what its transaction
stores is disjoint from the other groups as long as none of them has gained one
of the tuples since.
-/
namespace Cruxible.TupleOwnership
open JsonValue PythonDict KeyedTable AssertionState Fallible Cruxible.Graph PropertyValidation
open GraphOperations DirectWrites GovernedWrites GroupStore GroupRequests InFlight ResolvedGroups

/-- The group is a pending proposal for the relationship type and has a member
for the tuple. -/
def Holds (t : Tables) (relationshipType groupId : String) (tuple : Tuple) : Prop :=
  ∃ row ∈ t.getGroup groupId, row.isPendingProposal = true ∧
    row.relationshipType = relationshipType ∧ ∃ m ∈ t.getMembers groupId, m.identityTuple = tuple

instance (t : Tables) (relationshipType groupId : String) (tuple : Tuple) :
    Decidable (Holds t relationshipType groupId tuple) :=
  inferInstanceAs (Decidable (∃ row ∈ t.getGroup groupId, row.isPendingProposal = true ∧
    row.relationshipType = relationshipType ∧ ∃ m ∈ t.getMembers groupId, m.identityTuple = tuple))

/-- No tuple is a member of two pending groups of one relationship type. -/
def OwnedOnce (t : Tables) : Prop :=
  ∀ relationshipType tuple g h, Holds t relationshipType g tuple → Holds t relationshipType h tuple →
    g = h

/-- The type and the members that a plan is about to store. -/
def incoming : Plan → Option (String × List CandidateMember)
  | .propose (.rewrite row members) => some (row.relationshipType, members)
  | .propose (.create d) => some (d.proposal.relationshipType, d.pendingMembers)
  | _ => none

/-- No group that another request has written since this one's reads holds a tuple
that this one is about to store, unless it is the group that is written, and a
minted group id is new. -/
structure Unclaimed (c : GroupCommit) : Prop where
  free : ∀ q ∈ incoming c.plan, ∀ m ∈ q.2, ∀ h ∈ c.since,
    Holds c.before q.1 h m.identityTuple → h ∈ c.plan.writes c.before
  minted : ∀ g ∈ Plan.minted c.plan, groupView g c.before = (none, [])

instance : DecidablePred Unclaimed := fun c =>
  decidable_of_iff ((∀ q ∈ incoming c.plan, ∀ m ∈ q.2, ∀ h ∈ c.since,
      Holds c.before q.1 h m.identityTuple → h ∈ c.plan.writes c.before) ∧
      ∀ g ∈ Plan.minted c.plan, groupView g c.before = (none, []))
    ⟨fun h => ⟨h.1, h.2⟩, fun h => ⟨h.free, h.minted⟩⟩

/-- What is known of a plan in flight: outside its own group, the groups that
nobody has written since do not hold its tuples. -/
structure Cleared (p : Plan) (since : List String) (t : Tables) : Prop where
  free : ∀ q ∈ incoming p, ∀ m ∈ q.2, ∀ h, h ∉ since → Holds t q.1 h m.identityTuple →
    some h = Plan.copied p
  made : ∀ d, p = .propose (.create d) → ∃ priority,
    d.group = newCandidateGroup d.proposal d.pendingMembers priority ∧
      d.deltaMembers = d.pendingMembers

section Holding
variable {t t' : Tables} {relationshipType g : String} {tuple : Tuple}

theorem holds_congr (h : groupView g t' = groupView g t) :
    Holds t' relationshipType g tuple ↔ Holds t relationshipType g tuple := by
  have hrow : t'.getGroup g = t.getGroup g := congrArg Prod.fst h
  have hmembers : t'.getMembers g = t.getMembers g := congrArg Prod.snd h
  unfold Holds
  rw [hrow, hmembers]

theorem not_holds_of_view (h : groupView g t = (none, [])) :
    ¬ Holds t relationshipType g tuple := by
  rintro ⟨row, hrow, -⟩
  have hnone : t.getGroup g = none := congrArg Prod.fst h
  rw [hnone] at hrow
  cases hrow

theorem ownedOnce_of_holds (hs : OwnedOnce t) (h : ∀ relationshipType g tuple,
    Holds t' relationshipType g tuple → Holds t relationshipType g tuple) : OwnedOnce t' :=
  fun relationshipType tuple a b ha hb =>
    hs relationshipType tuple a b (h _ _ _ ha) (h _ _ _ hb)

theorem ownedOnce_store (hs : OwnedOnce t) (groupId type : String) (members : List CandidateMember)
    (hother : ∀ relationshipType h tuple, h ≠ groupId →
      Holds t' relationshipType h tuple → Holds t relationshipType h tuple)
    (hown : ∀ relationshipType tuple, Holds t' relationshipType groupId tuple →
      relationshipType = type ∧ ∃ m ∈ members, m.identityTuple = tuple)
    (hfree : ∀ m ∈ members, ∀ h, h ≠ groupId → ¬ Holds t type h m.identityTuple) :
    OwnedOnce t' := by
  have hapart : ∀ relationshipType tuple h, h ≠ groupId → Holds t' relationshipType groupId tuple →
      ¬ Holds t' relationshipType h tuple := by
    intro relationshipType tuple h hne hgroup hh
    have ⟨htype, m, hm, htuple⟩ := hown _ _ hgroup
    have hheld := hother _ _ _ hne hh
    rw [htype, ← htuple] at hheld
    exact hfree m hm h hne hheld
  intro relationshipType tuple a b ha hb
  by_cases hag : a = groupId
  · by_cases hbg : b = groupId
    · exact hag.trans hbg.symm
    · exact (hapart _ _ b hbg (hag ▸ ha) hb).elim
  · by_cases hbg : b = groupId
    · exact (hapart _ _ a hag (hbg ▸ hb) ha).elim
    · exact hs _ _ a b (hother _ _ _ hag ha) (hother _ _ _ hbg hb)

variable {f : CandidateGroup → CandidateGroup} {groupId : String}

theorem holds_updateRow (hf : ∀ row : CandidateGroup, (f row).isPendingProposal = true →
      row.isPendingProposal = true ∧ (f row).relationshipType = row.relationshipType)
    (h : Holds (t.updateRow groupId f) relationshipType g tuple) :
    Holds t relationshipType g tuple := by
  have ⟨row, hrow, hpending, htype, m, hm, htuple⟩ := h
  rw [getMembers_updateRow] at hm
  have hget := getGroup_updateRow t groupId f g
  by_cases hg : g = groupId
  · subst hg
    rw [if_pos rfl, Option.mem_def.mp hrow] at hget
    have ⟨stored, hstored, hrowEq⟩ := Option.map_eq_some_iff.mp hget.symm
    have hpending' : (f stored).isPendingProposal = true := by
      rw [← hrowEq] at hpending
      exact hpending
    have htype' : (f stored).relationshipType = relationshipType := by
      rw [← hrowEq] at htype
      exact htype
    have ⟨hwas, hsame⟩ := hf stored hpending'
    exact ⟨stored, hstored, hwas, hsame ▸ htype', m, hm, htuple⟩
  · rw [if_neg hg, Option.mem_def.mp hrow] at hget
    exact ⟨row, hget.symm, hpending, htype, m, hm, htuple⟩

theorem not_holds_updateRow (hf : ∀ row : CandidateGroup, (f row).status ≠ .pendingReview) :
    ¬ Holds (t.updateRow groupId f) relationshipType groupId tuple := by
  rintro ⟨row, hrow, hpending, -⟩
  have hget := getGroup_updateRow t groupId f groupId
  rw [if_pos rfl, Option.mem_def.mp hrow] at hget
  have ⟨stored, _, hrowEq⟩ := Option.map_eq_some_iff.mp hget.symm
  rw [← hrowEq] at hpending
  have hstatus : (f stored).status = .pendingReview := by
    simp only [CandidateGroup.isPendingProposal, decide_eq_true_eq] at hpending
    exact hpending.1
  exact hf stored hstatus

end Holding

section Reads
variable {t : Tables} {m : CandidateMember} {p : Proposal}

theorem mem_mergePendingMembers {existing current : List CandidateMember}
    (h : m ∈ mergePendingMembers existing current) : m ∈ existing ∨ m ∈ current := by
  have ⟨p, hp, hm⟩ := List.mem_map.mp h
  have hget := Dict.get?_of_mem hp
  have ⟨q, hq, hpq⟩ := List.mem_map.mp (Dict.mem_of_get?_ofList hget)
  have hqm : q = m := (congrArg Prod.snd hpq).trans hm
  rw [← hqm]
  exact List.mem_append.mp hq

variable {members : List CandidateMember} {pending : Option CandidateGroup}

theorem filtered_free (hp : p.policies.relationshipTuple = true)
    (hm : m ∈ (p.filtered t pending members).1) {h : String}
    (hh : Holds t p.relationshipType h m.identityTuple) : some h = pending.map (·.groupId) := by
  have ⟨row, hrow, hpending, htype, m', hm', htuple⟩ := hh
  have hkey : row.groupId = h := Table.key_of_get? hrow
  unfold Proposal.filtered filterRelationshipConflicts at hm
  rw [if_pos hp, List.partition_eq_filter_filter] at hm
  have htest := (List.mem_filter.mp hm).2
  rw [Bool.and_eq_true, List.isEmpty_iff] at htest
  have hnone := htest.2
  unfold Tables.findPendingGroupsForTuples at hnone
  rw [List.filter_eq_nil_iff] at hnone
  have hrefused := hnone row (Table.mem_rows_of_get? hrow)
  by_contra hne
  apply hrefused
  simp only [CandidateGroup.isPendingProposal, decide_eq_true_eq] at hpending
  have hany : (t.getMembers row.groupId).any (fun m'' => decide (m''.identityTuple ∈ [m.identityTuple]))
      = true := by
    rw [hkey, List.any_eq_true]
    exact ⟨m', hm', by simpa using htuple⟩
  rw [hany]
  simp [htype, hpending, CandidateGroup.isOpen, hkey, hne]

theorem delta_filtered (hm : m ∈ (p.delta t pending members).1) :
    m ∈ (p.filtered t pending members).1 := by
  unfold Proposal.delta at hm
  simp only [List.partition_eq_filter_filter] at hm
  exact (List.mem_filter.mp hm).1

theorem plan_cleared (hp : p.policies.relationshipTuple = true) (ht : OwnedOnce t)
    {plan : ProposalPlan} (hplan : p.plan t = .ok plan) : Cleared (.propose plan) [] t := by
  have hstores := Proposal.plan_stores hplan
  cases plan with
  | nothing | withdraw pending =>
    constructor
    case free =>
      intro q hq
      cases hq
    case made =>
      intro d hd
      cases hd
  | rewrite row members =>
    obtain ⟨pending, kept, priority, hpending, hrow, hmembers⟩ := hstores
    obtain ⟨hstored, hstatus, hkind, htype, _⟩ := findPendingGroup_some hpending
    constructor
    case made =>
      intro d hd
      cases hd
    case free =>
      intro q hq m hm h _ hh
      have hq' : (row.relationshipType, members) = q := Option.some.inj hq
      rw [← hq'] at hm hh
      have hh' : Holds t p.relationshipType h m.identityTuple := by
        rw [← htype]
        rw [hrow] at hh
        exact hh
      have hcopied : Plan.copied (.propose (.rewrite row members)) = some pending.groupId := by
        rw [hrow]
        rfl
      rw [hcopied]
      have hdelta : m ∈ (p.delta t (some pending) kept).1 → some h = some pending.groupId :=
        fun hm => filtered_free hp (delta_filtered hm) hh'
      rcases hmembers with hmembers | hmembers
      · exact hdelta (hmembers ▸ hm)
      · rw [hmembers] at hm
        rcases mem_mergePendingMembers hm with hold | hnew
        · have hown : Holds t p.relationshipType pending.groupId m.identityTuple :=
            ⟨pending, hstored, by simp [CandidateGroup.isPendingProposal, hstatus, hkind], htype,
              m, hold, rfl⟩
          exact congrArg some (ht _ _ _ _ hh' hown)
        · exact hdelta hnew
  | create d =>
    obtain ⟨kept, prior, forceReview, hnone, hd⟩ := hstores
    constructor
    case made =>
      intro d' hd'
      injection hd' with hd'
      injection hd' with hd'
      rw [← hd', hd]
      exact ⟨_, rfl, rfl⟩
    case free =>
      intro q hq m hm h _ hh
      have hq' : (d.proposal.relationshipType, d.pendingMembers) = q := Option.some.inj hq
      rw [← hq', hd] at hm hh
      have hnothing := filtered_free hp (delta_filtered hm) hh
      cases hnothing

end Reads

section Transactions
variable {t t' : Tables} {members : List CandidateMember} {row : CandidateGroup}

theorem commitRewrite_stores (hok : commitRewrite row members t = .ok t') :
    groupView row.groupId t' = (some row, members) ∧
      ∀ g, g ≠ row.groupId → groupView g t' = groupView g t := by
  have ⟨hrows, hmembers, _⟩ := commitRewrite_ok hok
  unfold commitRewrite at hok
  have ⟨u, _, hreplace⟩ := bind_eq_ok.mp hok
  have ⟨_, _, _, hstored⟩ := replaceMembers_ok hreplace
  constructor
  case left => exact Prod.ext ((hrows row.groupId).trans (if_pos rfl)) hstored
  case right =>
    intro g hg
    exact Prod.ext ((hrows g).trans (if_neg (Ne.symm hg))) (hmembers g hg)

variable {relationshipType : String} {tuple : Tuple} {g : String} {d : Creation}

theorem holds_stored (hview : groupView g t' = (some row, members))
    (h : Holds t' relationshipType g tuple) :
    relationshipType = row.relationshipType ∧ ∃ m ∈ members, m.identityTuple = tuple := by
  have hrow : t'.getGroup g = some row := congrArg Prod.fst hview
  have hmembers : t'.getMembers g = members := congrArg Prod.snd hview
  have ⟨stored, hstored, _, htype, m, hm, htuple⟩ := h
  rw [hmembers] at hm
  have hsame : row = stored := Option.some.inj (hrow.symm.trans hstored)
  rw [hsame]
  exact ⟨htype.symm, m, hm, htuple⟩

theorem ownedOnce_commitRewrite (hs : OwnedOnce t) (hok : commitRewrite row members t = .ok t')
    (hfree : ∀ m ∈ members, ∀ h, h ≠ row.groupId →
      ¬ Holds t row.relationshipType h m.identityTuple) : OwnedOnce t' := by
  have ⟨hview, hothers⟩ := commitRewrite_stores hok
  apply ownedOnce_store hs row.groupId row.relationshipType members _ _ hfree
  · intro relationshipType h tuple hne hh
    exact (holds_congr (hothers h hne)).mp hh
  · exact fun _ _ hh => holds_stored hview hh

theorem mem_saveMembers {groupId : String} (members : List CandidateMember) (t : Tables)
    {m : CandidateMember} (h : m ∈ (t.saveMembers groupId members).1.getMembers groupId) :
    m ∈ t.getMembers groupId ∨ m ∈ members := by
  induction members generalizing t with
  | nil => exact .inl h
  | cons m' ms ih =>
    unfold Tables.saveMembers at h
    split_ifs at h
    · exact .inl h
    · rcases ih _ h with hold | hnew
      · have hold' : m ∈ t.getMembers groupId ++ [m'] := by
          simpa [Tables.getMembers] using hold
        rcases List.mem_append.mp hold' with hmem | hlast
        · exact .inl hmem
        · right
          rw [List.mem_singleton.mp hlast]
          exact List.mem_cons_self
      · exact .inr (List.mem_cons_of_mem m' hnew)

theorem insert_view (hnew : groupView d.group.groupId t = (none, [])) :
    (d.insert t).1 = t ∧ (d.insert t).2 = false ∨
      t.pendingConflict d.group = false ∧
      (d.insert t).1.getGroup d.group.groupId = some d.group ∧
      ∀ m ∈ (d.insert t).1.getMembers d.group.groupId, m ∈ d.pendingMembers := by
  unfold Creation.insert
  split
  · exact .inl ⟨rfl, rfl⟩
  · rename_i u hsave
    right
    have ⟨hconflict, hu⟩ := saveGroup_ok hsave
    have ⟨stored, heq, _, _⟩ := saveMembers_eq d.group.groupId d.pendingMembers u
    refine ⟨hconflict, ?_, ?_⟩
    · rw [heq, hu]
      exact Table.get?_put_self t.groups d.group
    · intro m hm
      have hmembers : t.getMembers d.group.groupId = [] := congrArg Prod.snd hnew
      have hnone : u.getMembers d.group.groupId = [] := by
        rw [hu]
        exact hmembers
      rcases mem_saveMembers d.pendingMembers u hm with hold | hpending
      · rw [hnone] at hold
        cases hold
      · exact hpending

theorem concurrent_minted {g : CandidateGroup} (hconflict : t.pendingConflict d.group = false)
    (hpending : d.group.isPendingProposal = true)
    (htype : d.group.relationshipType = d.proposal.relationshipType)
    (hsignature : d.group.signature = d.proposal.signature) (hg : d.concurrent t = some g) :
    g.groupId = d.group.groupId := by
  by_contra hne
  have ⟨hstored, hstatus, hkind, hgtype, hgsignature⟩ := findPendingGroup_some hg
  have hrow : t.getGroup g.groupId = some g := by
    have hview := (d.insert_frame t).1 g.groupId hne
    exact (congrArg Prod.fst hview).symm.trans hstored
  have htaken : t.pendingConflict d.group = true := by
    unfold Tables.pendingConflict
    rw [hpending, Bool.true_and, List.any_eq_true]
    use g, Table.mem_rows_of_get? hrow
    simp [CandidateGroup.isPendingProposal, hstatus, hkind, hgtype, hgsignature, htype, hsignature,
      hne]
  rw [hconflict] at htaken
  cases htaken

/-- A creation whose members only its own group may hold, with what is known of it
from its read. -/
structure Admitted (d : Creation) (t : Tables) : Prop where
  minted : groupView d.group.groupId t = (none, [])
  made : ∃ priority, d.group = newCandidateGroup d.proposal d.pendingMembers priority
  delta : d.deltaMembers = d.pendingMembers
  free : ∀ m ∈ d.pendingMembers, ∀ h, Holds t d.proposal.relationshipType h m.identityTuple →
    ∃ g, d.concurrent t = some g ∧ h = g.groupId

section Creations
variable {d : Creation}

theorem Admitted.group (hd : Admitted d t) : d.group.isPendingProposal = true ∧
    d.group.relationshipType = d.proposal.relationshipType ∧
      d.group.signature = d.proposal.signature := by
  have ⟨priority, hgroup⟩ := hd.made
  rw [hgroup]
  exact ⟨rfl, rfl, rfl⟩

/-- The insert keeps every tuple in one group, whether all of it went in or not. -/
theorem ownedOnce_insert (hs : OwnedOnce t) (hd : Admitted d t) : OwnedOnce (d.insert t).1 := by
  rcases insert_view hd.minted with ⟨hsame, _⟩ | ⟨hconflict, hrow, hmembers⟩
  case inl =>
    rw [hsame]
    exact hs
  case inr =>
    have ⟨hpending, htype, hsignature⟩ := hd.group
    apply ownedOnce_store hs d.group.groupId d.proposal.relationshipType d.pendingMembers
    · intro relationshipType h tuple hne hh
      exact (holds_congr ((d.insert_frame t).1 h hne)).mp hh
    · intro relationshipType tuple hh
      have ⟨hsame, m, hm, htuple⟩ := holds_stored (Prod.ext hrow rfl) hh
      exact ⟨hsame.trans htype, m, hmembers m hm, htuple⟩
    · intro m hm h hne hh
      have ⟨g, hg, hid⟩ := hd.free m hm h hh
      exact hne (hid.trans (concurrent_minted hconflict hpending htype hsignature hg))

theorem insert_free (hd : Admitted d t) {g : CandidateGroup} (hg : d.concurrent t = some g)
    {m : CandidateMember} (hm : m ∈ d.pendingMembers) {h : String}
    (hh : Holds (d.insert t).1 d.proposal.relationshipType h m.identityTuple) : h = g.groupId := by
  have hfallback : Holds t d.proposal.relationshipType h m.identityTuple → h = g.groupId := by
    intro hheld
    have ⟨g', hg', hid⟩ := hd.free m hm h hheld
    have hsame : g' = g := Option.some.inj (hg'.symm.trans hg)
    rw [hid, hsame]
  rcases insert_view hd.minted with ⟨hsame, _⟩ | ⟨hconflict, _, _⟩
  case inl =>
    rw [hsame] at hh
    exact hfallback hh
  case inr =>
    have ⟨hpending, htype, hsignature⟩ := hd.group
    by_cases hminted : h = d.group.groupId
    · exact hminted.trans (concurrent_minted hconflict hpending htype hsignature hg).symm
    · exact hfallback ((holds_congr ((d.insert_frame t).1 h hminted)).mp hh)

theorem ownedOnce_create (hs : OwnedOnce t) (hd : Admitted d t) (hok : d.commit t = .ok t') :
    OwnedOnce t' := by
  have hinsert := ownedOnce_insert hs hd
  unfold Creation.commit at hok
  split_ifs at hok
  · rw [← Except.ok.inj hok]
    exact hinsert
  · split at hok
    · cases hok
    · rename_i g hg
      have ⟨hstored, hstatus, hkind, htype, _⟩ := findPendingGroup_some hg
      apply ownedOnce_commitRewrite hinsert hok
      intro m hm h hne hh
      have hh' : Holds (d.insert t).1 d.proposal.relationshipType h m.identityTuple := by
        rw [← htype]
        exact hh
      have hpending : m ∈ d.pendingMembers → False := fun hm => hne (insert_free hd hg hm hh')
      split_ifs at hm
      · rcases mem_mergePendingMembers hm with hold | hnew
        · have hown : Holds (d.insert t).1 d.proposal.relationshipType g.groupId m.identityTuple :=
            ⟨g, hstored, by simp [CandidateGroup.isPendingProposal, hstatus, hkind], htype, m, hold,
              rfl⟩
          exact hne (hinsert _ _ _ _ hh' hown)
        · exact hpending (hd.delta ▸ hnew)
      · exact hpending hm

end Creations

/-- A resolution leaves no group pending that was not. -/
theorem holds_resolved {r : ResolveRequest} {target : ResolveTarget}
    (hok : r.commit target t = .ok t') (h : Holds t' relationshipType g tuple) :
    Holds t relationshipType g tuple := by
  by_cases hg : g = target.group.groupId
  · exfalso
    subst hg
    have hresolved : ∀ (s : Tables) (id : Option String), ¬ Holds
        (s.updateGroupStatus target.group.groupId .resolved id) relationshipType
        target.group.groupId tuple :=
      fun s id => not_holds_updateRow fun row => nofun
    rcases (ResolveRequest.commit_ok hok).2 with ⟨_, hreject⟩ | ⟨_, happrove⟩
    case inl =>
      have ⟨_, hafter⟩ := ResolveRequest.reject_ok hreject
      exact hresolved _ _ (hafter ▸ h)
    case inr =>
      have ⟨a, u, id, graph, _, _, hafter⟩ := ResolveRequest.approve_ok happrove
      exact hresolved _ _ (hafter ▸ h)
  · exact (holds_congr (ResolveRequest.groupView_commit_of_ne hok hg)).mp h

theorem holds_annotated {d : DirectWrite} (hok : d.commit t = .ok t')
    (h : Holds t' relationshipType g tuple) : Holds t relationshipType g tuple := by
  have hannotated : ∀ (ids : List String) (s : Tables),
      Holds (ids.foldl d.annotate s) relationshipType g tuple → Holds s relationshipType g tuple := by
    intro ids
    induction ids with
    | nil => exact fun _ h => h
    | cons id ids ih =>
      intro s hs
      have hone := ih (d.annotate s id) hs
      unfold DirectWrite.annotate at hone
      split at hone
      · exact hone
      · split_ifs at hone
        · apply holds_updateRow _ hone
          exact fun row hrow => ⟨hrow, rfl⟩
        · exact hone
  exact hannotated (d.conflicts t) t ((holds_congr ((DirectWrite.commit_ok hok).1 g)).mp h)

theorem commit_ownedOnce {c : GroupCommit} (hs : OwnedOnce c.before)
    (hcleared : Cleared c.plan c.since c.before) (hok : c.plan.commit c.before = .ok c.after)
    (hc : Unclaimed c) : OwnedOnce c.after := by
  cases c with
  | mk request plan since before after =>
    cases plan with
    | resolve r target => exact ownedOnce_of_holds hs fun _ _ _ => holds_resolved hok
    | directWrite d => exact ownedOnce_of_holds hs fun _ _ _ => holds_annotated hok
    | propose plan =>
      cases plan with
      | nothing =>
        have hsame : before = after := Except.ok.inj hok
        exact hsame ▸ hs
      | withdraw pending =>
        have hafter : commitWithdraw pending before = after := Except.ok.inj hok
        rw [← hafter]
        apply ownedOnce_of_holds hs
        intro relationshipType g tuple hh
        exact holds_updateRow (fun row hrow => by simp [CandidateGroup.isPendingProposal] at hrow)
          hh
      | rewrite row members =>
        apply ownedOnce_commitRewrite hs hok
        intro m hm h hne hh
        by_cases hsince : h ∈ since
        · have hown := hc.free _ rfl m hm h hsince hh
          exact hne (List.mem_singleton.mp hown)
        · have hown := hcleared.free _ rfl m hm h hsince hh
          exact hne (Option.some.inj hown)
      | create d =>
        obtain ⟨priority, hgroup, hdelta⟩ := hcleared.made d rfl
        have hminted := hc.minted _ rfl
        refine ownedOnce_create hs ⟨hminted, ⟨priority, hgroup⟩, hdelta, ?_⟩ hok
        intro m hm h hh
        have hwritten : h ∈ (Plan.propose (.create d)).writes before := by
          by_cases hsince : h ∈ since
          · exact hc.free _ rfl m hm h hsince hh
          · cases hcleared.free _ rfl m hm h hsince hh
        rcases List.mem_cons.mp hwritten with hfirst | hconcurrent
        · rw [hfirst] at hh
          exact (not_holds_of_view hminted hh).elim
        · obtain ⟨g, hg, hid⟩ := Option.map_eq_some_iff.mp (Option.mem_toList.mp hconcurrent)
          exact ⟨g, hg, hid.symm⟩

end Transactions

/-- Other requests leave what is known of a plan for the groups they do not write. -/
theorem Cleared.frame {p q : Plan} {since : List String} {t t' : Tables}
    (hp : Cleared p since t) (hok : q.commit t = .ok t') : Cleared p (since ++ q.writes t) t' where
  made := hp.made
  free := by
    intro r hr m hm h hh hheld
    have hold : h ∉ since := fun hmem => hh (List.mem_append_left _ hmem)
    have hnew : h ∉ q.writes t := fun hmem => hh (List.mem_append_right _ hmem)
    have hview := groupSystem_framed q t t' hok h hnew
    exact hp.free r hr m hm h hold ((holds_congr hview).mp hheld)

theorem read_cleared {q : Request} {t : Tables} (ht : OwnedOnce t)
    (hq : ∀ p, q = .propose p → p.policies.relationshipTuple = true) {plan : Plan}
    (h : q.read t = .ok plan) : Cleared plan [] t := by
  cases q with
  | propose p =>
    have ⟨plan', hplan, h⟩ := bind_eq_ok.mp h
    rw [← pure_eq_ok.mp h]
    exact plan_cleared (hq p rfl) ht hplan
  | resolve r =>
    have ⟨target, _, h⟩ := bind_eq_ok.mp h
    rw [← pure_eq_ok.mp h]
    constructor
    case free =>
      intro q hq
      cases hq
    case made =>
      intro d hd
      cases hd
  | directWrite d =>
    rw [← Except.ok.inj h]
    constructor
    case free =>
      intro q hq
      cases hq
    case made =>
      intro d hd
      cases hd

/-- In every interleaving of proposals that are identified by relationship tuples,
resolutions and direct writes in which no commit stores a tuple that another
group has gained since its reads, no tuple is in two pending groups of a type. -/
theorem pending_tuples_are_owned_once (requests : Nat → Request) (t : Tables)
    (schedule : List Step) (ht : OwnedOnce t)
    (htuples : ∀ i p, requests i = .propose p → p.policies.relationshipTuple = true)
    (hunclaimed : ∀ c ∈ (run groupSystem requests (idle t) schedule).log, Unclaimed c) :
    OwnedOnce (run groupSystem requests (idle t) schedule).store := by
  apply run_held_invariant groupSystem requests OwnedOnce Cleared Unclaimed (w := idle t)
  · intro i s p hs hread
    exact read_cleared hs (htuples i) hread
  · exact fun p since q s s' hp hok => hp.frame hok
  · exact fun c hs hp hok hc => commit_ownedOnce hs hp hok hc
  · exact ht
  · intro i h hi
    cases hi
  · exact hunclaimed

/-- A proposal of `a → c` for another signature. -/
def rival : Proposal := { refresh with signature := "r", mintedGroupId := "GRP-3" }

def rivals : Nat → Request
  | 0 => .propose refresh
  | _ => .propose rival

theorem ownedOnce_pendingTables : OwnedOnce pendingTables := by
  rintro relationshipType tuple g h ⟨row, hrow, -⟩ ⟨row', hrow', -⟩
  have honly : ∀ g, ∀ row ∈ pendingTables.getGroup g, g = "GRP-1" := by
    intro g row hrow
    by_contra hg
    have hnone : pendingTables.getGroup g = none := Table.get?_put_of_ne ∅ (Ne.symm hg)
    rw [hnone] at hrow
    cases hrow
  exact (honly g row hrow).trans (honly h row' hrow').symm

/-- The later proposal finds `a → c` in the refreshed group and stores nothing. -/
theorem serial_rivals_own_once :
    OwnedOnce (run groupSystem rivals (idle pendingTables)
      [.read 0, .commit 0, .read 1, .commit 1]).store := by
  apply pending_tuples_are_owned_once
  · exact ownedOnce_pendingTables
  · intro i p hp
    unfold rivals at hp
    split at hp
    · injection hp with hp
      exact hp ▸ rfl
    · injection hp with hp
      exact hp ▸ rfl
  · decide +kernel

/-- Both have read before either commits: two pending groups hold `a → c`. -/
theorem overtaken_rival_owns_too :
    OwnedOnce pendingTables ∧ ¬ OwnedOnce (run groupSystem rivals (idle pendingTables)
      [.read 0, .read 1, .commit 0, .commit 1]).store := by
  constructor
  case left => exact ownedOnce_pendingTables
  case right =>
    intro h
    have hsame := h "depends_on" (dependency "a" "c").identityTuple "GRP-1" "GRP-3"
      (by decide +kernel) (by decide +kernel)
    exact absurd hsame (by decide)

end Cruxible.TupleOwnership

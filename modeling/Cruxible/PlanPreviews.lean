import Cruxible.Neighbors
import Cruxible.RepeatIsolation
import Mathlib.Data.List.TakeWhile

/-!
# Plan previews

The templates of queries, of providers and of the conditions of repeats are
previewed when a plan is compiled and resolved when it runs. At preview the input
is there and the outputs of the steps are not, so that a reference to an earlier
step is left as it is. Two readings of the same references, written apart.
-/
namespace Cruxible.PlanPreviews
open JsonValue PythonDict PropertyValidation Fallible ReadMetadata WorkflowRuns

/-- `_is_resolvable_step_ref`. -/
def isResolvableStepRef (s : String) (known : List String) : Bool :=
  match dropMarker "$steps." s with
  | none => false
  | some rest =>
      let name := String.ofList ((rest.takeWhile (· ≠ '.')).takeWhile (· ≠ '['))
      name ≠ "" && known.contains name

/-- `_reject_unresolvable_preview_ref`. -/
def rejectUnresolvablePreviewRef (s : String) : Except CoreError Unit := do
  refuseIf (s = "$item" ∨ (dropMarker "$item." s).isSome) (.config
    (s!"Workflow plan preview cannot resolve runtime reference '{s}': " ++
      "'$item' references are only available during per-item execution, not in a plan preview."))
  refuseIf (s = "$steps" ∨ (dropMarker "$steps." s).isSome) (.config
    (s!"Workflow plan preview cannot resolve runtime reference '{s}': " ++
      "it does not name a known prior step output."))

/-- `_preview_value` on a text. -/
def previewText (input : Object) (known : List String) (s : String) : Except CoreError Value :=
  match dropMarker "$input." s with
  | some path => extractPath (.object input) path s
  | none =>
      if isResolvableStepRef s known then .ok (.str s)
      else do
        rejectUnresolvablePreviewRef s
        pure (.str s)

mutual
/-- A template with every text replaced. -/
def mapTexts (f : String → Except CoreError Value) : Value → Except CoreError Value
  | .str s => f s
  | .array items => do
      let mapped ← mapItems f items
      pure (.array mapped)
  | .object entries => do
      let mapped ← mapEntries f entries
      pure (.object mapped)
  | v => .ok v
def mapItems (f : String → Except CoreError Value) : List Value → Except CoreError (List Value)
  | [] => .ok []
  | v :: vs => do
      let head ← mapTexts f v
      let tail ← mapItems f vs
      pure (head :: tail)
def mapEntries (f : String → Except CoreError Value) :
    List (String × Value) → Except CoreError (List (String × Value))
  | [] => .ok []
  | (k, v) :: vs => do
      let head ← mapTexts f v
      let tail ← mapEntries f vs
      pure ((k, head) :: tail)

end

/-- `preview_value`. -/
def previewValue (input : Object) (known : List String) (template : Value) :
    Except CoreError Value :=
  mapTexts (previewText input known) template

mutual
/-- The texts of a template. -/
def leaves : Value → List String
  | .str s => [s]
  | .array items => leavesItems items
  | .object entries => leavesEntries entries
  | _ => []
def leavesItems : List Value → List String
  | [] => []
  | v :: vs => leaves v ++ leavesItems vs
def leavesEntries : List (String × Value) → List String
  | [] => []
  | (_, v) :: vs => leaves v ++ leavesEntries vs

end

mutual
theorem resolveValue_eq (sc : Scope) (v : Value) : sc.resolveValue v = mapTexts sc.resolveText v := by
  cases v with
  | array items =>
    rw [Scope.resolveValue, mapTexts, resolveItems_eq sc items]
  | object entries =>
    rw [Scope.resolveValue, mapTexts, resolveEntries_eq sc entries]
  | _ => rfl
theorem resolveItems_eq (sc : Scope) (vs : List Value) :
    sc.resolveItems vs = mapItems sc.resolveText vs := by
  cases vs with
  | nil => rfl
  | cons v vs => rw [Scope.resolveItems, mapItems, resolveValue_eq sc v, resolveItems_eq sc vs]
theorem resolveEntries_eq (sc : Scope) (es : List (String × Value)) :
    sc.resolveEntries es = mapEntries sc.resolveText es := by
  cases es with
  | nil => rfl
  | cons e es =>
    obtain ⟨k, v⟩ := e
    rw [Scope.resolveEntries, mapEntries, resolveValue_eq sc v, resolveEntries_eq sc es]

end

mutual
theorem mapTexts_congr {f g : String → Except CoreError Value} (v : Value)
    (h : ∀ s ∈ leaves v, f s = g s) : mapTexts f v = mapTexts g v := by
  cases v with
  | str s => exact h s List.mem_cons_self
  | array items => rw [mapTexts, mapTexts, mapItems_congr items h]
  | object entries => rw [mapTexts, mapTexts, mapEntries_congr entries h]
  | _ => rfl
theorem mapItems_congr {f g : String → Except CoreError Value} (vs : List Value)
    (h : ∀ s ∈ leavesItems vs, f s = g s) : mapItems f vs = mapItems g vs := by
  cases vs with
  | nil => rfl
  | cons v vs =>
    rw [mapItems, mapItems, mapTexts_congr v fun s hs => h s (List.mem_append_left _ hs),
      mapItems_congr vs fun s hs => h s (List.mem_append_right _ hs)]
theorem mapEntries_congr {f g : String → Except CoreError Value} (es : List (String × Value))
    (h : ∀ s ∈ leavesEntries es, f s = g s) : mapEntries f es = mapEntries g es := by
  cases es with
  | nil => rfl
  | cons e es =>
    obtain ⟨k, v⟩ := e
    rw [mapEntries, mapEntries, mapTexts_congr v fun s hs => h s (List.mem_append_left _ hs),
      mapEntries_congr es fun s hs => h s (List.mem_append_right _ hs)]

end

/-- A template whose texts preview to what they resolve to is resolved by its preview. -/
theorem previewValue_eq_resolveValue {input : Object} {known : List String} {sc : Scope}
    {template : Value}
    (h : ∀ s ∈ leaves template, previewText input known s = sc.resolveText s) :
    previewValue input known template = sc.resolveValue template := by
  rw [resolveValue_eq]
  exact mapTexts_congr template h

mutual
theorem mapTexts_leaf {f : String → Except CoreError Value} {v w : Value}
    (h : mapTexts f v = .ok w) {s : String} (hs : s ∈ leaves v) : ∃ u, f s = .ok u := by
  cases v with
  | str t =>
    obtain rfl := List.mem_singleton.mp hs
    exact ⟨w, h⟩
  | array items =>
    obtain ⟨us, hus, -⟩ := bind_eq_ok.mp h
    exact mapItems_leaf hus hs
  | object entries =>
    obtain ⟨us, hus, -⟩ := bind_eq_ok.mp h
    exact mapEntries_leaf hus hs
  | _ => cases hs
theorem mapItems_leaf {f : String → Except CoreError Value} {vs ws : List Value}
    (h : mapItems f vs = .ok ws) {s : String} (hs : s ∈ leavesItems vs) : ∃ u, f s = .ok u := by
  cases vs with
  | nil => cases hs
  | cons v vs =>
    obtain ⟨u, hu, h⟩ := bind_eq_ok.mp h
    obtain ⟨us, hus, -⟩ := bind_eq_ok.mp h
    rcases List.mem_append.mp hs with hs | hs
    · exact mapTexts_leaf hu hs
    · exact mapItems_leaf hus hs
theorem mapEntries_leaf {f : String → Except CoreError Value} {es ws : List (String × Value)}
    (h : mapEntries f es = .ok ws) {s : String} (hs : s ∈ leavesEntries es) : ∃ u, f s = .ok u := by
  cases es with
  | nil => cases hs
  | cons e es =>
    obtain ⟨u, hu, h⟩ := bind_eq_ok.mp h
    obtain ⟨us, hus, -⟩ := bind_eq_ok.mp h
    rcases List.mem_append.mp hs with hs | hs
    · exact mapTexts_leaf hu hs
    · exact mapEntries_leaf hus hs

end

variable {rest : List Char} {v : Value} {marker ref : String} {e : CoreError} {path : List Char}
  {steps : List PlanStep}

theorem dropMarker_eq_some {s : String} :
    dropMarker marker s = some rest ↔ s.toList = marker.toList ++ rest := by
  unfold dropMarker
  split_ifs with h
  case pos =>
    obtain ⟨tail, htail⟩ := List.isPrefixOf_iff_prefix.mp h
    rw [← htail, List.drop_left]
    simp
  case neg =>
    simp only [false_iff]
    intro heq
    exact h (List.isPrefixOf_iff_prefix.mpr ⟨rest, heq.symm⟩)

theorem dropMarker_other {a b s : String} (h : dropMarker a s = some rest)
    (hab : a.toList.take 3 ≠ b.toList.take 3) (ha : 3 ≤ a.toList.length) (hb : 3 ≤ b.toList.length)
    : dropMarker b s = none := by
  rw [Option.eq_none_iff_forall_ne_some]
  intro other hother
  have heq := (dropMarker_eq_some.mp h).symm.trans (dropMarker_eq_some.mp hother)
  have htake := congrArg (List.take 3) heq
  rw [List.take_append_of_le_length ha, List.take_append_of_le_length hb] at htake
  exact hab htake

theorem ne_of_dropMarker {s t : String} (h : dropMarker marker s = some rest)
    (ht : dropMarker marker t = none) : s ≠ t := by
  rintro rfl
  rw [h] at ht
  cases ht

/-- `resolve_value` knows no step of that name. -/
def unknownAlias (name s : String) : CoreError :=
  .queryExecution s!"Unknown workflow step alias '{name}' in reference '{s}'"

/-- `resolve_value` has no meaning for the reference. -/
def unsupported (s : String) : CoreError :=
  .queryExecution s!"Unsupported workflow reference '{s}'"

/-- What tells the refusals of a reference from those of a path. -/
def initial : CoreError → Option Char
  | .queryExecution message => message.toList.head?
  | _ => none

theorem initial_unknownAlias (name s : String) : initial (unknownAlias name s) = some 'U' := by
  simp [initial, unknownAlias, toString]

theorem initial_unsupported (s : String) : initial (unsupported s) = some 'U' := by
  simp [initial, unsupported, toString]

theorem initial_extractSegment {path : String} {current : Value} {segment : Segment}
    (h : extractSegment path ref current segment = .error e) : initial e ≠ some 'U' := by
  unfold extractSegment at h
  split at h
  case h_1 k =>
    split at h
    case h_1 entries =>
      split at h
      · cases h
      · cases h
        simp [initial, toString]
    case h_2 =>
      cases h
      simp [initial, toString]
  case h_2 digits =>
    split at h
    case h_1 items =>
      split_ifs at h
      · cases h
        simp [initial]
      · split at h
        · cases h
        · cases h
          simp [initial, toString]
    case h_2 =>
      cases h
      simp [initial, toString]

theorem initial_extractPath {root : Value} (h : extractPath root path ref = .error e) :
    initial e ≠ some 'U' := by
  unfold extractPath at h
  generalize segments path.length path = tokens at h
  induction tokens generalizing root with
  | nil => cases h
  | cons segment more ih =>
    rw [List.foldlM_cons] at h
    cases hsegment : extractSegment (String.ofList path) ref root segment with
    | error e' =>
      rw [hsegment] at h
      cases h
      exact initial_extractSegment hsegment
    | ok next =>
      rw [hsegment] at h
      exact ih h

def IsInputRef (s : String) : Prop := s = "$input" ∨ (dropMarker "$input." s).isSome

/-- What is resolved outside of the items of a step. -/
def plainScope (input : Object) (outputs : Outputs) : Scope := { input := input, outputs := outputs }

/-- The two readings of a reference agree. -/
structure Agrees (input : Object) (outputs : Outputs) (known : List String) (s : String) :
    Prop where
  inputs : IsInputRef s →
    previewText input known s = (plainScope input outputs).resolveText s
  named : ∀ name, (plainScope input outputs).resolveText s ≠ .error (unknownAlias name s)
  wellFormed : (plainScope input outputs).resolveText s ≠ .error (unsupported s)

/-- The outputs have whatever a preview takes for known. -/
def Covered (known : List String) (outputs : Outputs) : Prop :=
  ∀ name ∈ known, name ≠ "" → (outputs.get? name).isSome

/-- A reference with an index behind the name of its step names a step for all that. -/
def Indexless (outputs : Outputs) (s : String) : Prop :=
  ∀ name path, stepRef s = some (name, path) → '[' ∈ name.toList → (outputs.get? name).isSome

variable {input : Object} {outputs : Outputs} {known : List String} {s : String}

theorem agrees_of_input (h : dropMarker "$input." s = some path) :
    Agrees input outputs known s ∧ stepRef s = none := by
  have hsteps : dropMarker "$steps." s = none := dropMarker_other h (by decide) (by decide) (by decide)
  have hinput : s ≠ "$input" := ne_of_dropMarker h (by decide)
  have hitem : s ≠ "$item" := ne_of_dropMarker h (by decide)
  have hrun : (plainScope input outputs).resolveText s = extractPath (.object input) path s := by
    simp only [Scope.resolveText, hinput, hitem, if_false, h, plainScope]
  have hwords : ∀ e, initial e = some 'U' → (plainScope input outputs).resolveText s ≠ .error e := by
    intro e he herror
    exact initial_extractPath (hrun ▸ herror) he
  refine ⟨⟨fun _ => ?_, fun name => hwords _ (initial_unknownAlias name s),
    hwords _ (initial_unsupported s)⟩, by rw [stepRef, hsteps, Option.map_none]⟩
  rw [hrun, previewText, h]

theorem previewText_cases (h : previewText input known s = .ok v)
    (hinput : dropMarker "$input." s = none) :
    v = .str s ∧ (isResolvableStepRef s known = true ∨
      (s ≠ "$item" ∧ dropMarker "$item." s = none ∧ s ≠ "$steps" ∧
        dropMarker "$steps." s = none)) := by
  simp only [previewText, hinput] at h
  split_ifs at h with hknown
  case pos =>
    cases h
    exact ⟨rfl, .inl hknown⟩
  case neg =>
    obtain ⟨_, hpass, h⟩ := bind_eq_ok.mp h
    obtain ⟨hitem, hpass⟩ := refuseIf_bind_eq_ok.mp hpass
    have hsteps := refuseIf_eq_ok.mp hpass
    simp only [not_or, Option.not_isSome_iff_eq_none] at hitem hsteps
    exact ⟨(pure_eq_ok.mp h).symm, .inr ⟨hitem.1, hitem.2, hsteps.1, hsteps.2⟩⟩

/-- At run time the name of the step ends at the first dot only. -/
theorem agrees_of_step (hcovered : Covered known outputs)
    (hpreview : previewText input known s = .ok v) (hknown : isResolvableStepRef s known = true) :
    Agrees input outputs known s ↔ Indexless outputs s := by
  unfold isResolvableStepRef at hknown
  cases hsteps : dropMarker "$steps." s with
  | none =>
    rw [hsteps] at hknown
    cases hknown
  | some rest =>
    rw [hsteps] at hknown
    simp only [Bool.and_eq_true, decide_eq_true_eq, List.contains_iff_mem] at hknown
    have hinput : dropMarker "$input." s = none :=
      dropMarker_other hsteps (by decide) (by decide) (by decide)
    have hitem : dropMarker "$item." s = none :=
      dropMarker_other hsteps (by decide) (by decide) (by decide)
    have hne : s ≠ "$input" := ne_of_dropMarker hsteps (by decide)
    have hne' : s ≠ "$item" := ne_of_dropMarker hsteps (by decide)
    obtain ⟨name, path, href⟩ : ∃ name path, stepRef s = some (name, path) :=
      ⟨_, _, by rw [stepRef, hsteps, Option.map_some]⟩
    have hrun : (plainScope input outputs).resolveText s =
        (outputs.get? name).elim (.error (unknownAlias name s)) fun target =>
          if path.isEmpty then .ok target else extractPath target path s := by
      simp only [Scope.resolveText, hne, hne', if_false, hinput, hitem, href, plainScope]
      cases outputs.get? name with
      | none => rfl
      | some target => rfl
    have hwritten : name = String.ofList (rest.takeWhile (· ≠ '.')) := by
      rw [stepRef, hsteps, Option.map_some] at href
      exact (congrArg Prod.fst (Option.some.inj href)).symm
    constructor
    case mp =>
      intro hagrees other path' href' hindex
      rw [href] at href'
      cases href'
      by_contra hmissing
      rw [Option.not_isSome_iff_eq_none] at hmissing
      rw [hmissing] at hrun
      exact hagrees.named name hrun
    case mpr =>
      intro hindexless
      have hsome : (outputs.get? name).isSome := by
        by_cases hindex : '[' ∈ name.toList
        case pos => exact hindexless name path href hindex
        case neg =>
          have hsame : (rest.takeWhile (· ≠ '.')).takeWhile (· ≠ '[') =
              rest.takeWhile (· ≠ '.') := by
            rw [List.takeWhile_eq_self_iff]
            intro c hc
            have : c ≠ '[' := by
              rintro rfl
              apply hindex
              rw [hwritten, String.toList_ofList]
              exact hc
            simp [this]
          rw [hsame, ← hwritten] at hknown
          exact hcovered name hknown.2 hknown.1
      obtain ⟨target, htarget⟩ := Option.isSome_iff_exists.mp hsome
      rw [htarget] at hrun
      have hwords : ∀ e, initial e = some 'U' →
          (plainScope input outputs).resolveText s ≠ .error e := by
        intro e he herror
        rw [hrun] at herror
        rw [Option.elim_some] at herror
        split_ifs at herror with hpath
        exact initial_extractPath herror he
      refine ⟨fun href => ?_, fun name => hwords _ (initial_unknownAlias name s),
        hwords _ (initial_unsupported s)⟩
      rcases href with rfl | href
      · exact absurd rfl hne
      · rw [hinput] at href
        cases href

theorem resolveText_literal (hinput : dropMarker "$input." s = none) (hitem : s ≠ "$item")
    (hitem' : dropMarker "$item." s = none) (href : stepRef s = none) (hne : s ≠ "$input") :
    (plainScope input outputs).resolveText s = .ok (.str s) := by
  simp only [Scope.resolveText, hne, hitem, if_false, hinput, hitem', href]

theorem agrees_of_literal (hinput : dropMarker "$input." s = none) (hitem : s ≠ "$item")
    (hitem' : dropMarker "$item." s = none) (href : stepRef s = none)
    (hpreview : previewText input known s = .ok (.str s)) :
    Agrees input outputs known s ↔ s ≠ "$input" := by
  constructor
  case mp =>
    rintro hagrees rfl
    have heq := hagrees.inputs (.inl rfl)
    rw [hpreview] at heq
    cases heq
  case mpr =>
    intro hne
    have hrun : (plainScope input outputs).resolveText s = .ok (.str s) :=
      resolveText_literal hinput hitem hitem' href hne
    constructor
    case inputs => exact fun _ => hpreview.trans hrun.symm
    case named => simp [hrun]
    case wellFormed => simp [hrun]

theorem agrees_iff (hcovered : Covered known outputs) (hpreview : previewText input known s = .ok v) :
    Agrees input outputs known s ↔ s ≠ "$input" ∧ Indexless outputs s := by
  have hnone : stepRef s = none → Indexless outputs s := by
    intro href name path h
    rw [href] at h
    cases h
  cases hinput : dropMarker "$input." s with
  | some path =>
    obtain ⟨hagrees, href⟩ := agrees_of_input hinput
    exact iff_of_true hagrees ⟨ne_of_dropMarker hinput (by decide), hnone href⟩
  | none =>
    obtain ⟨hv, hknown | ⟨hitem, hitem', -, hsteps⟩⟩ := previewText_cases hpreview hinput
    · rw [agrees_of_step hcovered hpreview hknown]
      refine (and_iff_right ?_).symm
      rintro rfl
      exact absurd hknown (by simp [isResolvableStepRef, dropMarker])
    · have href : stepRef s = none := by rw [stepRef, hsteps, Option.map_none]
      rw [agrees_of_literal hinput hitem hitem' href (hv ▸ hpreview), and_iff_left (hnone href)]

def asName : PlanItem → Option String
  | .step s => s.asName
  | .repeatSteps _ name _ _ _ => name

/-- `_prior_step_aliases_by_index`. -/
def priorStepAliases (before : List PlanItem) : List String := before.filterMap asName

/-- `validate_step_shape`: an assertion has no name for an output. -/
def ShapedStep (s : PlanStep) : Prop := ProcedureRuns.StepBody.asserts s.body = true → s.asName = none

def ShapedItem : PlanItem → Prop
  | .step s => ShapedStep s
  | .repeatSteps _ _ _ _ steps => ∀ s ∈ steps, ShapedStep s

/-- The templates of a plan by the names that their preview knows and the outputs that
they are resolved against, whatever the attempts before have traced. -/
inductive Reaches (env : RunEnv) (plan : List PlanItem) : List String → Outputs → Prop
  | step {before after : List PlanItem} {s : PlanStep} :
      plan = before ++ .step s :: after → (execute env before).failed = none →
      Reaches env plan (priorStepAliases before) (execute env before).outputs
  | nested {before after : List PlanItem} {stepId : String} {name : Option String} {most : Nat}
      {untilSpec : ComparisonSpec} {done todo : List PlanStep} {s : PlanStep}
      {trace : List WorkflowRuns.Event} {attempt : Run} :
      plan = before ++ .repeatSteps stepId name most untilSpec (done ++ s :: todo) :: after →
      (execute env before).failed = none →
      attempt = done.foldl (executeStep env) { execute env before with trace := trace } →
      attempt.failed = none →
      Reaches env plan (priorStepAliases before ++ nestedOutputKeys done) attempt.outputs
  | untilSpec {before after : List PlanItem} {stepId : String} {name : Option String} {most : Nat}
      {untilSpec : ComparisonSpec} {steps : List PlanStep} {trace : List WorkflowRuns.Event}
      {attempt : Run} :
      plan = before ++ .repeatSteps stepId name most untilSpec steps :: after →
      (execute env before).failed = none →
      attempt = steps.foldl (executeStep env) { execute env before with trace := trace } →
      attempt.failed = none →
      Reaches env plan (nestedOutputKeys steps)
        (Dict.ofList (attemptScopedOutputs steps attempt.outputs))

variable {env : RunEnv} {run : Run} {plan : List PlanItem}

theorem Covered.set (h : Covered known outputs) (key : String) (v : Value) :
    Covered known (outputs.set key v) := by
  intro name hname hne
  rw [Dict.get?_set]
  split_ifs
  · rfl
  · exact h name hname hne

theorem covered_append {more : List String} :
    Covered (known ++ more) outputs ↔ Covered known outputs ∧ Covered more outputs := by
  simp only [Covered, List.mem_append, or_imp, forall_and]

theorem covered_outputKey (outputs : Outputs) (stepId : String) (name : Option String) (v : Value) :
    Covered name.toList (outputs.set (outputKey stepId name) v) := by
  intro other hother hne
  obtain rfl : name = some other := Option.mem_toList.mp hother
  rw [outputKey, if_neg hne, Dict.get?_set_self]
  rfl

theorem foldl_covered {ι : Type} {f : Run → ι → Run} {nameOf : ι → Option String}
    (hstays : ∀ run x, run.failed.isSome → f run x = run) {xs : List ι}
    (hstep : ∀ run, ∀ x ∈ xs, ∀ known, (f run x).failed = none → Covered known run.outputs →
      Covered (known ++ (nameOf x).toList) (f run x).outputs)
    (hdone : (xs.foldl f run).failed = none) (h : Covered known run.outputs) :
    Covered (known ++ xs.filterMap nameOf) (xs.foldl f run).outputs := by
  have hfailed : ∀ (ys : List ι) (r : Run), r.failed.isSome → ys.foldl f r = r := by
    intro ys
    induction ys with
    | nil => exact fun r _ => rfl
    | cons y ys ih =>
      intro r hr
      rw [List.foldl_cons, hstays r y hr, ih r hr]
  induction xs generalizing run known with
  | nil => simpa using h
  | cons x xs ih =>
    rw [List.foldl_cons] at hdone ⊢
    have hx : (f run x).failed = none := by
      by_contra hne
      rw [hfailed xs _ (Option.isSome_iff_ne_none.mpr hne)] at hdone
      exact hne hdone
    have hcovered := ih (fun run y hy => hstep run y (List.mem_cons_of_mem _ hy)) hdone
      (hstep run x List.mem_cons_self known hx h)
    have hnames : (x :: xs).filterMap nameOf = (nameOf x).toList ++ xs.filterMap nameOf := by
      cases hname : nameOf x <;> simp [hname]
    rw [hnames, ← List.append_assoc]
    exact hcovered

theorem executeStep_covered {s : PlanStep} (hs : ShapedStep s)
    (hdone : (executeStep env run s).failed = none) (h : Covered known run.outputs) :
    Covered (known ++ s.asName.toList) (executeStep env run s).outputs := by
  unfold executeStep at hdone ⊢
  split_ifs at hdone ⊢ with hfailed
  case pos =>
    rw [hdone] at hfailed
    cases hfailed
  case neg =>
    split at hdone
    case h_1 => cases hdone
    case h_2 done hperform =>
      dsimp only
      cases hout : done.output with
      | none =>
        have hname : s.asName = none := hs (RepeatIsolation.perform_output hperform hout)
        rw [hname, Option.toList_none, List.append_nil]
        exact h
      | some o => exact covered_append.mpr ⟨h.set _ _, covered_outputKey _ _ _ _⟩

theorem executeStep_stays (env : RunEnv) (run : Run) (s : PlanStep) (h : run.failed.isSome) :
    executeStep env run s = run := if_pos h

theorem executeItem_stays (env : RunEnv) (run : Run) (item : PlanItem) (h : run.failed.isSome) :
    executeItem env run item = run := by
  cases item with
  | step s => exact executeStep_stays env run s h
  | repeatSteps stepId name most untilSpec steps => exact if_pos h

theorem executeAttempts_covered {stepId : String} {name : Option String}
    {untilSpec : ComparisonSpec} {left attempts : Nat}
    (hdone : (executeAttempts env stepId name untilSpec steps left attempts run).failed = none)
    (h : Covered known run.outputs) :
    Covered (known ++ name.toList)
      (executeAttempts env stepId name untilSpec steps left attempts run).outputs := by
  induction left generalizing attempts run with
  | zero => cases hdone
  | succ left ih =>
    unfold executeAttempts at hdone ⊢
    dsimp only at hdone ⊢
    split at hdone
    · cases hdone
    · cases hdone
    case h_3 => exact ih hdone h
    case h_4 => exact covered_append.mpr ⟨h.set _ _, covered_outputKey _ _ _ _⟩

theorem executeItem_covered {item : PlanItem} (hitem : ShapedItem item)
    (hdone : (executeItem env run item).failed = none) (h : Covered known run.outputs) :
    Covered (known ++ (asName item).toList) (executeItem env run item).outputs := by
  cases item with
  | step s => exact executeStep_covered hitem hdone h
  | repeatSteps stepId name most untilSpec steps =>
    unfold executeItem at hdone ⊢
    dsimp only at hdone ⊢
    split_ifs at hdone ⊢ with hfailed
    · rw [hdone] at hfailed
      cases hfailed
    · exact executeAttempts_covered hdone h

theorem execute_covered (hplan : ∀ item ∈ plan, ShapedItem item)
    (hdone : (execute env plan).failed = none) :
    Covered (priorStepAliases plan) (execute env plan).outputs := by
  have hstart : Covered [] ({} : Run).outputs := fun _ hname => absurd hname List.not_mem_nil
  exact foldl_covered (executeItem_stays env)
    (fun _ item hitem _ hdone h => executeItem_covered (hplan item hitem) hdone h) hdone hstart

theorem nested_covered (hsteps : ∀ s ∈ steps, ShapedStep s)
    (hdone : (steps.foldl (executeStep env) run).failed = none) (h : Covered known run.outputs) :
    Covered (known ++ nestedOutputKeys steps) (steps.foldl (executeStep env) run).outputs :=
  foldl_covered (executeStep_stays env)
    (fun _ s hs _ hdone h => executeStep_covered (hsteps s hs) hdone h) hdone h

/-- What a preview knows, the run has. -/
theorem Reaches.covered (hplan : ∀ item ∈ plan, ShapedItem item)
    (h : Reaches env plan known outputs) : Covered known outputs := by
  cases h with
  | step hat hbefore =>
    subst hat
    exact execute_covered (fun item hitem => hplan item (List.mem_append_left _ hitem)) hbefore
  | nested hat hbefore hattempt hdone =>
    subst hat hattempt
    have hitem := hplan _ (List.mem_append_right _ List.mem_cons_self)
    exact nested_covered (fun s hs => hitem s (List.mem_append_left _ hs)) hdone
      (execute_covered (fun item hitem => hplan item (List.mem_append_left _ hitem)) hbefore)
  | untilSpec hat hbefore hattempt hdone =>
    subst hat hattempt
    have hitem := hplan _ (List.mem_append_right _ List.mem_cons_self)
    have hcovered := nested_covered hitem hdone
      (execute_covered (fun item hitem => hplan item (List.mem_append_left _ hitem)) hbefore)
    intro name hname hne
    have hsome := (covered_append.mp hcovered).2 name hname hne
    unfold attemptScopedOutputs
    rw [Dict.get?_ofList_filterMap (Neighbors.nodup_eraseDups _),
      if_pos (List.mem_eraseDups.mpr hname)]
    exact hsome

/-- A provider reads a seed, and a second one is handed what the template spells. -/
def seedStep : PlanItem :=
  .step { stepId := "read", asName := some "seed", body := .provider "source" (.object []) }

def seedPlan (template : Value) : List PlanItem :=
  [seedStep, .step { stepId := "write", asName := some "draft", body := .provider "writer" template }]

def seedEnv : RunEnv where
  input := [("limit", .int 5)]
  runQuery := fun _ _ _ _ => .error (.queryExecution "no query")
  callProvider := fun _ _ _ => .ok [("items", .array [.int 1])]
  payload := fun _ _ _ => .error (.queryExecution "no artifact")
  cast := fun _ _ v _ => .ok v
  compare := fun _ left right => .ok (left = right)

theorem seedPlan_reaches (template : Value) :
    Reaches seedEnv (seedPlan template) ["seed"] (execute seedEnv [seedStep]).outputs := by
  have hplan : seedPlan template = [seedStep] ++ .step
      { stepId := "write", asName := some "draft", body := .provider "writer" template } :: [] := rfl
  have hdone : (execute seedEnv [seedStep]).failed = none := by rfl
  exact .step hplan hdone

theorem seedPlan_shaped (template : Value) : ∀ item ∈ seedPlan template, ShapedItem item := by
  intro item hitem
  rcases List.mem_cons.mp hitem with rfl | hitem
  · exact fun h => absurd h (by decide)
  · obtain rfl := List.mem_singleton.mp hitem
    exact fun h => absurd h Bool.false_ne_true

/-- At every place of a plan: the references of an accepted template mean at run time what
they meant at preview if and only if none is the bare input, and none that carries an index
behind the name of a step names no step for it. -/
theorem preview_agrees_iff (hplan : ∀ item ∈ plan, ShapedItem item)
    (hreaches : Reaches env plan known outputs) {template previewed : Value}
    (hpreview : previewValue env.input known template = .ok previewed) :
    (∀ s ∈ leaves template, Agrees env.input outputs known s) ↔
      ∀ s ∈ leaves template, s ≠ "$input" ∧ Indexless outputs s := by
  refine forall₂_congr fun s hs => ?_
  obtain ⟨v, hv⟩ := mapTexts_leaf hpreview hs
  exact agrees_iff (hreaches.covered hplan) hv

/-- An item of the seed and a limit of the input. -/
def seedTemplate : Value :=
  .object [("first", .str "$steps.seed.items[0]"), ("limit", .str "$input.limit")]

theorem seedTemplate_agrees :
    Agrees seedEnv.input (execute seedEnv [seedStep]).outputs ["seed"] "$steps.seed.items[0]" ∧
      Agrees seedEnv.input (execute seedEnv [seedStep]).outputs ["seed"] "$input.limit" := by
  have hpreview : previewValue seedEnv.input ["seed"] seedTemplate =
      .ok (.object [("first", .str "$steps.seed.items[0]"), ("limit", .int 5)]) := by rfl
  have hleaves : leaves seedTemplate = ["$steps.seed.items[0]", "$input.limit"] := by rfl
  have hagrees := (preview_agrees_iff (seedPlan_shaped seedTemplate)
    (seedPlan_reaches seedTemplate) hpreview).mpr (by
      intro s hs
      rw [hleaves] at hs
      rcases List.mem_cons.mp hs with rfl | hs
      · refine ⟨by decide, ?_⟩
        intro name path href hindex
        have hname : name = "seed" := by
          have href' : stepRef "$steps.seed.items[0]" = some ("seed", "items[0]".toList) := by rfl
          rw [href'] at href
          cases href
          rfl
        subst hname
        exact absurd hindex (by decide)
      · obtain rfl := List.mem_singleton.mp hs
        refine ⟨by decide, ?_⟩
        intro name path href
        have href' : stepRef "$input.limit" = none := by rfl
        rw [href'] at href
        cases href)
  rw [hleaves] at hagrees
  exact ⟨hagrees _ (by simp), hagrees _ (by simp)⟩

def capturedTemplate : Value :=
  .object [("all", .str "$input"), ("first", .str "$steps.seed[0]")]

/-- The preview hands on the bare input as a text, and takes a step with an index behind
its name for known, which the run does not. -/
theorem bare_input_and_index :
    Reaches seedEnv (seedPlan capturedTemplate) ["seed"] (execute seedEnv [seedStep]).outputs ∧
    previewValue seedEnv.input ["seed"] capturedTemplate = .ok capturedTemplate ∧
    (plainScope seedEnv.input (execute seedEnv [seedStep]).outputs).resolveText "$input" =
      .ok (.object [("limit", .int 5)]) ∧
    (plainScope seedEnv.input (execute seedEnv [seedStep]).outputs).resolveText "$steps.seed[0]" =
      .error (unknownAlias "seed[0]" "$steps.seed[0]") ∧
    ∀ s ∈ leaves capturedTemplate,
      ¬Agrees seedEnv.input (execute seedEnv [seedStep]).outputs ["seed"] s := by
  have hrun : (plainScope seedEnv.input (execute seedEnv [seedStep]).outputs).resolveText
      "$input" = .ok (.object [("limit", .int 5)]) := by rfl
  have hindex : (plainScope seedEnv.input (execute seedEnv [seedStep]).outputs).resolveText
      "$steps.seed[0]" = .error (unknownAlias "seed[0]" "$steps.seed[0]") := by rfl
  refine ⟨seedPlan_reaches capturedTemplate, by rfl, hrun, hindex, ?_⟩
  intro s hs hagrees
  have hleaves : leaves capturedTemplate = ["$input", "$steps.seed[0]"] := by rfl
  rw [hleaves] at hs
  rcases List.mem_cons.mp hs with rfl | hs
  · have heq := hagrees.inputs (.inl rfl)
    have hpreview : previewText seedEnv.input ["seed"] "$input" = .ok (.str "$input") := by rfl
    rw [hrun, hpreview] at heq
    cases heq
  · obtain rfl := List.mem_singleton.mp hs
    exact hagrees.named "seed[0]" hindex

end Cruxible.PlanPreviews

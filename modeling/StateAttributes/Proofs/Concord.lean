import StateAttributes.Proofs.Callout

namespace StateAttributes.Machine

variable {H α ε : Type} [Stateful H] {machine : Machine H} {now : Instant} {target : StateName} {host : H}
  {states : Forest}

def Moves (machine : Machine H) (host : H) (target : StateName) : Prop :=
  machine.canReach host target ∧ machine.current host ≠ some target

theorem judge_moves (compiled : machine.subject.CompiledFrom states) :
    machine.judge host target = .ok true ↔ machine.Moves host target := by
  constructor
  · intro granted
    obtain ⟨moves, -, reach⟩ := judge_granted granted
    exact ⟨reach, moves⟩
  · intro moves
    obtain ⟨reach, differs⟩ := moves
    obtain ⟨leaf, -⟩ := (canReach_iff compiled).mp reach
    rw [judge_leaf compiled differs leaf, if_pos reach]

-- The observers' part of what a request runs.
def heard (machine : Machine H) (now : Instant) (target : StateName) (call : Call H α) (host : H) :
    List (Callout H) :=
  (machine.callouts now target call host).filter fun callout => !callout.isEffect

theorem callouts_declined (declined : machine.judge host target ≠ .ok true) (call : Call H α) :
    machine.callouts now target call host = [] := by
  rcases judge_declined declined with kept | ⟨refusal, refused⟩
  · rw [callouts, watched_kept kept]
  · rw [callouts, watched_refused refused]

theorem callouts_granted (machine : Machine H) (now : Instant)
    (granted : machine.judge host target = .ok true) (call : Call H α) :
    ∃ told : List (Callout H), (∀ callout ∈ told, callout.isEffect = false) ∧
      machine.callouts now target call host = call.effectOn (machine.stored now target host) ++ told := by
  cases result : (call.effect (machine.stored now target host)).value with
  | some ending => exact ⟨[], by simp, by rw [callouts, watched_failed granted call result, List.append_nil]⟩
  | none =>
    rw [callouts, watched_carried granted call result]
    exact ⟨_, tellFrom_observers _ _ _ _, rfl⟩

theorem callouts_effect (granted : machine.judge host target = .ok true) (call : Call H α) :
    (machine.callouts now target call host).filter Callout.isEffect =
      call.effectOn (machine.stored now target host) := by
  obtain ⟨told, others, whole⟩ := machine.callouts_granted now granted call
  have rest : told.filter Callout.isEffect = [] := by
    rw [List.filter_eq_nil_iff]
    intro callout member
    simp [others callout member]
  have own : (call.effectOn (machine.stored now target host)).filter Callout.isEffect =
      call.effectOn (machine.stored now target host) := by
    cases call <;> rfl
  rw [whole, List.filter_append, own, rest, List.append_nil]

-- Behind an effect that succeeds and touches nothing a request goes on like one without an effect.
theorem perform_quiet (call : Call H α)
    (goes : (call.effect (machine.stored now target host)).value = none)
    (keeps : (call.effect (machine.stored now target host)).host = machine.stored now target host) :
    (machine.perform now target call host).host = (machine.change now target host).host ∧
      machine.heard now target call host = machine.heard now target .change host := by
  have plain : machine.change now target host = machine.perform now target .change host := rfl
  have foreign : (call.effectOn (machine.stored now target host)).filter (fun callout => !callout.isEffect) = [] := by
    cases call <;> rfl
  rw [plain]
  by_cases granted : machine.judge host target = .ok true
  · rw [perform_carried granted call goes, perform_carried granted .change rfl, heard, heard, callouts, callouts,
      watched_carried granted call goes, watched_carried granted .change rfl, keeps]
    refine ⟨rfl, ?_⟩
    simp only [List.filter_append, foreign]
    rfl
  · rw [heard, heard, callouts_declined granted, callouts_declined granted, perform_declined granted,
      perform_declined granted]
    exact ⟨rfl, rfl⟩

-- What a maintainer may rely on when one way is replaced by another.
structure Concord (machine : Machine H) (now : Instant) (target : StateName) (host : H) (ofRefusal : Refusal → ε)
    (effect : SideEffect H ε) : Prop where
  moves : (machine.change now target host).value = true ↔ machine.Moves host target
  moves_strict : (machine.changeStrict now target host).value = .ok true ↔ machine.Moves host target
  effect_runs : machine.Moves host target →
    (machine.callouts now target (.changeWith effect) host).filter Callout.isEffect =
        [.effect (machine.stored now target host)] ∧
      (machine.callouts now target (.changeStrictWith ofRefusal effect) host).filter Callout.isEffect =
        [.effect (machine.stored now target host)]
  effect_rests : ¬ machine.Moves host target →
    machine.callouts now target (.changeWith effect) host = [] ∧
      machine.callouts now target (.changeStrictWith ofRefusal effect) host = []
  host_alike : (effect (machine.stored now target host)).value = .ok () →
    (effect (machine.stored now target host)).host = machine.stored now target host →
      (machine.changeStrict now target host).host = (machine.change now target host).host ∧
      (machine.changeWith now target effect host).host = (machine.change now target host).host ∧
      (machine.changeStrictWith ofRefusal now target effect host).host = (machine.change now target host).host
  heard_alike : (effect (machine.stored now target host)).value = .ok () →
    (effect (machine.stored now target host)).host = machine.stored now target host →
      machine.heard now target .changeStrict host = machine.heard now target .change host ∧
      machine.heard now target (.changeWith effect) host = machine.heard now target .change host ∧
      machine.heard now target (.changeStrictWith ofRefusal effect) host = machine.heard now target .change host
  refused : ∀ refusal, (machine.changeStrict now target host).value = .error refusal →
    (machine.change now target host).value = false ∧
      (machine.changeWith now target effect host).value = .ok false ∧
      (machine.changeStrictWith ofRefusal now target effect host).value = .error (ofRefusal refusal)
  refuses : (∃ refusal, (machine.changeStrict now target host).value = .error refusal) ↔
    ¬ machine.Moves host target ∧ machine.current host ≠ some target
  same : machine.current host = some target →
    (machine.change now target host).value = false ∧
      (machine.changeStrict now target host).value = .ok false ∧
      (machine.changeWith now target effect host).value = .ok false ∧
      (machine.changeStrictWith ofRefusal now target effect host).value = .ok false

theorem change_value (machine : Machine H) (now : Instant) (target : StateName) (host : H) :
    (machine.change now target host).value = true ↔ machine.judge host target = .ok true := by
  have plain : machine.change now target host = machine.perform now target .change host := rfl
  rw [plain]
  cases judged : machine.judge host target with
  | error refusal => simp [perform_refused judged, Call.refuse]
  | ok moves =>
    cases moves with
    | false => simp [perform_kept judged, Call.answer]
    | true => simp [perform_carried judged .change rfl, Call.answer]

variable {name : String} {initial : StateName} {events : List String} {options : Options}

-- Whatever the host holds, and whatever observers and side effect do.
theorem concord_of_compiled
    (compiled : Attribute.compile name initial events options states = .ok machine.subject)
    (now : Instant) (target : StateName) (host : H) (ofRefusal : Refusal → ε) (effect : SideEffect H ε) :
    machine.Concord now target host ofRefusal effect := by
  have granted : machine.judge host target = .ok true ↔ machine.Moves host target :=
    judge_moves (Attribute.compiled_from compiled)
  constructor
  case moves => rw [change_value, granted]
  case moves_strict => rw [changeStrict_value, granted]
  case effect_runs =>
    intro moves
    exact ⟨callouts_effect (granted.mpr moves) _, callouts_effect (granted.mpr moves) _⟩
  case effect_rests =>
    intro rests
    exact ⟨callouts_declined (mt granted.mp rests) _, callouts_declined (mt granted.mp rests) _⟩
  case host_alike =>
    intro succeeds keeps
    have goes := SideEffect.ends_none.mpr succeeds
    have stays := (SideEffect.ends_run effect (machine.stored now target host)).1.trans keeps
    exact ⟨(perform_quiet .changeStrict rfl rfl).1,
      (perform_quiet (.changeWith effect) goes stays).1,
      (perform_quiet (.changeStrictWith ofRefusal effect) goes stays).1⟩
  case heard_alike =>
    intro succeeds keeps
    have goes := SideEffect.ends_none.mpr succeeds
    have stays := (SideEffect.ends_run effect (machine.stored now target host)).1.trans keeps
    exact ⟨(perform_quiet .changeStrict rfl rfl).2,
      (perform_quiet (.changeWith effect) goes stays).2,
      (perform_quiet (.changeStrictWith ofRefusal effect) goes stays).2⟩
  case refused =>
    intro refusal refused
    rw [changeStrict_value] at refused
    exact ⟨congrArg Outcome.value (perform_refused refused .change),
      congrArg Outcome.value (perform_refused refused (.changeWith effect)),
      congrArg Outcome.value (perform_refused refused (.changeStrictWith ofRefusal effect))⟩
  case refuses =>
    rw [changeStrict_value, ← granted]
    constructor
    · rintro ⟨refusal, refused⟩
      refine ⟨by simp [refused], ?_⟩
      intro stays
      rw [judge_same stays] at refused
      cases refused
    · rintro ⟨declined, moves⟩
      rcases judge_declined declined with kept | refused
      · exact absurd (judge_stays kept) moves
      · exact refused
  case same =>
    intro stays
    have kept := judge_same stays
    exact ⟨congrArg Outcome.value (perform_kept kept .change),
      congrArg Outcome.value (perform_kept kept .changeStrict),
      congrArg Outcome.value (perform_kept kept (.changeWith effect)),
      congrArg Outcome.value (perform_kept kept (.changeStrictWith ofRefusal effect))⟩

-- A second reading may lead back into the review that it is part of, so to itself; asking for it is no move.
theorem second_reading_stays :
    Attribute.compile "state" "draft" [] {} Attribute.documentStates = .ok .document ∧
      (⟨.document, []⟩ : Machine Values).canReach (Values.empty.set "state" (some "second")) "second" ∧
      ((⟨.document, []⟩ : Machine Values).change default "second"
        (Values.empty.set "state" (some "second"))).value = false := by
  have compiled : Attribute.compile "state" "draft" [] {} Attribute.documentStates =
      .ok (⟨.document, []⟩ : Machine Values).subject := rfl
  have permits : Attribute.documentStates.Permits "second" "second" :=
    ⟨.many ["published", "review"], by decide, "review", by decide, .inr ⟨_, .tail _ (.head _), by decide⟩⟩
  refine ⟨compiled, (canReach_iff (Attribute.compiled_from compiled)).mpr ⟨by decide, _, rfl, permits⟩, ?_⟩
  have concord := concord_of_compiled compiled default "second" (Values.empty.set "state" (some "second"))
    Refusal.message Registry.file
  exact (concord.same rfl).1

end StateAttributes.Machine

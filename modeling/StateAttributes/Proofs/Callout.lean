import StateAttributes.Proofs.Call

namespace StateAttributes

-- A direct call to code from outside, with the host that it found.
inductive Callout (H : Type) where
  | effect (found : H)
  | observer (position : Nat) (transition : Transition) (found : H)

def Callout.isEffect : Callout H → Bool
  | effect _ => true
  | observer _ _ _ => false

structure Watched (H : Type) where
  host : H
  callouts : List (Callout H)

instance [Stateful H] : Stateful (Watched H) :=
  ⟨fun watched => Stateful.values watched.host,
    fun watched values => { watched with host := Stateful.setValues watched.host values }⟩

-- The same act, noted on the list. What it does inside is its own affair.
def Act.watched (note : H → Callout H) (act : Act H α) : Act (Watched H) α := fun watched =>
  ⟨(act watched.host).value, ⟨(act watched.host).host, watched.callouts ++ [note watched.host]⟩,
    (act watched.host).events⟩

def Observer.watched (position : Nat) (observer : Observer H) : Observer (Watched H) := fun transition =>
  Act.watched (.observer position transition) (observer transition)

def watchedFrom (position : Nat) : List (Observer H) → List (Observer (Watched H))
  | [] => []
  | observer :: rest => observer.watched position :: watchedFrom (position + 1) rest

def Machine.watched (machine : Machine H) : Machine (Watched H) :=
  ⟨machine.subject, watchedFrom 0 machine.observers⟩

def Call.watched : Call H α → Call (Watched H) α
  | change => change
  | changeStrict => changeStrict
  | changeWith effect => changeWith (Act.watched .effect effect)
  | changeStrictWith ofRefusal effect => changeStrictWith ofRefusal (Act.watched .effect effect)

def Call.effectOn (call : Call H α) (found : H) : List (Callout H) :=
  match call with
  | change => []
  | changeStrict => []
  | changeWith _ => [.effect found]
  | changeStrictWith _ _ => [.effect found]

-- Each observer once, in order, on the host that the one before it left.
def tellFrom (transition : Transition) (position : Nat) : List (Observer H) → H → List (Callout H)
  | [], _ => []
  | observer :: rest, host =>
    .observer position transition host :: tellFrom transition (position + 1) rest ((observer transition).code host)

theorem tellFrom_observers (transition : Transition) (position : Nat) (observers : List (Observer H)) (host : H) :
    ∀ callout ∈ tellFrom transition position observers host, callout.isEffect = false := by
  induction observers generalizing position host with
  | nil => exact List.forall_mem_nil _
  | cons observer rest ih => exact List.forall_mem_cons.mpr ⟨rfl, ih _ _⟩

theorem notifyAll_watched (transition : Transition) (position : Nat) (observers : List (Observer H)) (host : H)
    (callouts : List (Callout H)) :
    notifyAll transition position (watchedFrom position observers) ⟨host, callouts⟩ =
      ⟨(), ⟨(notifyAll transition position observers host).host,
          callouts ++ tellFrom transition position observers host⟩,
        (notifyAll transition position observers host).events⟩ := by
  induction observers generalizing position host callouts with
  | nil => simp [watchedFrom, notifyAll, tellFrom]
  | cons observer rest ih =>
    simp [watchedFrom, notifyAll, tellFrom, Observer.watched, Act.watched, Act.code, ih]

theorem Call.effect_watched (call : Call H α) (host : H) (callouts : List (Callout H)) :
    call.watched.effect ⟨host, callouts⟩ =
      ⟨(call.effect host).value, ⟨(call.effect host).host, callouts ++ call.effectOn host⟩,
        (call.effect host).events⟩ := by
  cases call with
  | change => simp [watched, effect, effectOn]
  | changeStrict => simp [watched, effect, effectOn]
  | changeWith effect =>
    simp only [watched, Call.effect, effectOn, SideEffect.ends, Act.bind_run, Act.watched]
    cases (effect host).value <;> simp
  | changeStrictWith ofRefusal effect =>
    simp only [watched, Call.effect, effectOn, SideEffect.ends, Act.bind_run, Act.watched]
    cases (effect host).value <;> simp

namespace Call

@[simp] theorem answer_watched (call : Call H α) (moved : Bool) : call.watched.answer moved = call.answer moved := by
  cases call <;> rfl

@[simp] theorem refuse_watched (call : Call H α) (refusal : Refusal) :
    call.watched.refuse refusal = call.refuse refusal := by
  cases call <;> rfl

@[simp] theorem strict_watched (call : Call H α) : call.watched.strict = call.strict := by
  cases call <;> rfl

end Call

namespace Machine

variable {H α : Type} [Stateful H] {machine : Machine H} {now : Instant} {target : StateName} {host : H}

-- The direct calls that a request makes, in order.
def callouts (machine : Machine H) (now : Instant) (target : StateName) (call : Call H α) (host : H) :
    List (Callout H) :=
  (machine.watched.perform now target call.watched ⟨host, []⟩).host.callouts

theorem judge_watched (machine : Machine H) (host : H) (noted : List (Callout H)) (target : StateName) :
    machine.watched.judge ⟨host, noted⟩ target = machine.judge host target := rfl

theorem stored_watched (machine : Machine H) (now : Instant) (host : H) (noted : List (Callout H))
    (target : StateName) :
    machine.watched.stored now target ⟨host, noted⟩ = ⟨machine.stored now target host, noted⟩ := rfl

theorem watched_effect (machine : Machine H) (now : Instant) (target : StateName) (call : Call H α) (host : H) :
    call.watched.effect (machine.watched.stored now target ⟨host, []⟩) =
      ⟨(call.effect (machine.stored now target host)).value,
        ⟨(call.effect (machine.stored now target host)).host, call.effectOn (machine.stored now target host)⟩,
        (call.effect (machine.stored now target host)).events⟩ := by
  rw [stored_watched, Call.effect_watched, List.nil_append]

theorem watched_kept (kept : machine.judge host target = .ok false) (call : Call H α) :
    machine.watched.perform now target call.watched ⟨host, []⟩ = ⟨call.answer false, ⟨host, []⟩, []⟩ := by
  rw [← machine.judge_watched host []] at kept
  rw [perform_kept kept, Call.answer_watched]

theorem watched_refused (refused : machine.judge host target = .error refusal) (call : Call H α) :
    machine.watched.perform now target call.watched ⟨host, []⟩ =
      ⟨call.refuse refusal, ⟨host, []⟩, [.refused call.strict refusal]⟩ := by
  rw [← machine.judge_watched host []] at refused
  rw [perform_refused refused, Call.refuse_watched, Call.strict_watched]

theorem watched_failed (granted : machine.judge host target = .ok true) (call : Call H α)
    (fails : (call.effect (machine.stored now target host)).value = some ending) :
    machine.watched.perform now target call.watched ⟨host, []⟩ =
      ⟨ending,
        ⟨(call.effect (machine.stored now target host)).host, call.effectOn (machine.stored now target host)⟩,
        .moved (machine.step now target host) :: (call.effect (machine.stored now target host)).events⟩ := by
  rw [← machine.judge_watched host []] at granted
  have effect := machine.watched_effect now target call host
  have watched : (call.watched.effect (machine.watched.stored now target ⟨host, []⟩)).value = some ending := by
    rw [effect, fails]
  rw [perform_failed granted call.watched watched, effect]
  rfl

theorem watched_carried (granted : machine.judge host target = .ok true) (call : Call H α)
    (goes : (call.effect (machine.stored now target host)).value = none) :
    machine.watched.perform now target call.watched ⟨host, []⟩ =
      ⟨call.answer true,
        ⟨(machine.notify (machine.step now target host) (call.effect (machine.stored now target host)).host).host,
          call.effectOn (machine.stored now target host) ++
            tellFrom (machine.step now target host) 0 machine.observers
              (call.effect (machine.stored now target host)).host⟩,
        .moved (machine.step now target host) :: (call.effect (machine.stored now target host)).events ++
          (machine.notify (machine.step now target host)
            (call.effect (machine.stored now target host)).host).events⟩ := by
  rw [← machine.judge_watched host []] at granted
  have effect := machine.watched_effect now target call host
  have watched : (call.watched.effect (machine.watched.stored now target ⟨host, []⟩)).value = none := by
    rw [effect, goes]
  rw [perform_carried granted call.watched watched, effect, Call.answer_watched]
  simp only [notify, Machine.watched, notifyAll_watched]
  rfl

-- The list is kept beside the request and does not enter into it.
theorem perform_watched (machine : Machine H) (now : Instant) (target : StateName) (call : Call H α) (host : H) :
    machine.watched.perform now target call.watched ⟨host, []⟩ =
      ⟨(machine.perform now target call host).value,
        ⟨(machine.perform now target call host).host, machine.callouts now target call host⟩,
        (machine.perform now target call host).events⟩ := by
  rw [callouts]
  cases judged : machine.judge host target with
  | error refusal => rw [watched_refused judged, perform_refused judged]
  | ok moves =>
    cases moves with
    | false => rw [watched_kept judged, perform_kept judged]
    | true =>
      cases result : (call.effect (machine.stored now target host)).value with
      | some ending => rw [watched_failed judged call result, perform_failed judged call result]
      | none => rw [watched_carried judged call result, perform_carried judged call result]

end Machine
end StateAttributes

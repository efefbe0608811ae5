import StateAttributes.Proofs.Conduct

namespace StateAttributes

-- A call, by the type of its answer.
inductive Call (H : Type) : Type → Type 1 where
  | change : Call H Bool
  | changeStrict : Call H (Except Refusal Bool)
  | changeWith (effect : SideEffect H ε) : Call H (Except ε Bool)
  | changeStrictWith (ofRefusal : Refusal → ε) (effect : SideEffect H ε) : Call H (Except ε Bool)

-- Whether a side effect ends the call that it belongs to, and with which answer.
def SideEffect.ends (effect : SideEffect H ε) : Act H (Option (Except ε Bool)) := do
  match ← effect with
  | .error failure => return some (.error failure)
  | .ok () => return none

namespace Call

def strict : Call H α → Bool
  | change => false
  | changeStrict => true
  | changeWith _ => false
  | changeStrictWith _ _ => true

-- The answer of a call that was not refused: whether the value has moved.
def answer (call : Call H α) (moved : Bool) : α :=
  match call with
  | change => moved
  | changeStrict => .ok moved
  | changeWith _ => .ok moved
  | changeStrictWith _ _ => .ok moved

-- A lenient call answers a refusal as if nothing had been asked for.
def refuse (call : Call H α) (refusal : Refusal) : α :=
  match call with
  | change => false
  | changeStrict => .error refusal
  | changeWith _ => .ok false
  | changeStrictWith ofRefusal _ => .error (ofRefusal refusal)

-- What runs between the move and the observers.
def effect : Call H α → Act H (Option α)
  | change => pure none
  | changeStrict => pure none
  | changeWith effect => effect.ends
  | changeStrictWith _ effect => effect.ends

theorem refuse_lenient {call : Call H α} (lenient : call.strict = false) (refusal : Refusal) :
    call.refuse refusal = call.answer false := by
  cases call with
  | change => rfl
  | changeStrict => cases lenient
  | changeWith effect => rfl
  | changeStrictWith ofRefusal effect => cases lenient

end Call

namespace Act

@[simp] theorem pure_run (value : α) (host : H) : (Pure.pure value : Act H α) host = ⟨value, host, []⟩ := rfl

@[simp] theorem bind_run (act : Act H α) (next : α → Act H β) (host : H) :
    (act >>= next) host =
      ⟨(next (act host).value (act host).host).value, (next (act host).value (act host).host).host,
        (act host).events ++ (next (act host).value (act host).host).events⟩ := rfl

@[simp] theorem emit_run (event : Event) (host : H) : (emit event : Act H Unit) host = ⟨(), host, [event]⟩ := rfl

@[simp] theorem look_run (host : H) : look host = ⟨host, host, []⟩ := rfl

end Act

namespace SideEffect

variable {effect : SideEffect H ε} {host : H}

theorem ends_some (ending : (effect.ends host).value = some answer) :
    ∃ failure, (effect host).value = .error failure ∧ answer = .error failure := by
  simp only [SideEffect.ends, Act.bind_run] at ending
  cases result : (effect host).value with
  | error failure =>
    rw [result] at ending
    exact ⟨failure, rfl, (Option.some.inj ending).symm⟩
  | ok _ =>
    rw [result] at ending
    cases ending

theorem ends_none : (effect.ends host).value = none ↔ (effect host).value = .ok () := by
  simp only [SideEffect.ends, Act.bind_run]
  cases (effect host).value <;> simp

theorem ends_run (effect : SideEffect H ε) (host : H) :
    (effect.ends host).host = (effect host).host ∧ (effect.ends host).events = (effect host).events := by
  simp only [SideEffect.ends, Act.bind_run]
  cases (effect host).value <;> simp

end SideEffect

namespace Machine

variable {H α : Type} [Stateful H]

def perform (machine : Machine H) (now : Instant) (target : StateName) : Call H α → Act H α
  | .change => machine.change now target
  | .changeStrict => machine.changeStrict now target
  | .changeWith effect => machine.changeWith now target effect
  | .changeStrictWith ofRefusal effect => machine.changeStrictWith ofRefusal now target effect

variable {machine : Machine H} {now : Instant} {target : StateName} {host : H}

@[simp] theorem move_run (machine : Machine H) (now : Instant) (target : StateName) (host : H) :
    machine.move now target host =
      ⟨machine.step now target host, machine.stored now target host, [.moved (machine.step now target host)]⟩ :=
  rfl

theorem judge_stays (kept : machine.judge host target = .ok false) : machine.current host = some target := by
  by_contra moves
  unfold judge at kept
  rw [if_neg moves] at kept
  split at kept
  · cases kept
  · split at kept
    · cases kept
    · split at kept <;> cases kept

theorem perform_kept (kept : machine.judge host target = .ok false) (call : Call H α) :
    machine.perform now target call host = ⟨call.answer false, host, []⟩ := by
  cases call <;> simp [perform, change, changeStrict, changeWith, changeStrictWith, kept, Call.answer]

theorem perform_refused (refused : machine.judge host target = .error refusal) (call : Call H α) :
    machine.perform now target call host = ⟨call.refuse refusal, host, [.refused call.strict refusal]⟩ := by
  cases call <;>
    simp [perform, change, changeStrict, changeWith, changeStrictWith, refused, Call.refuse, Call.strict]

theorem judge_declined (declined : machine.judge host target ≠ .ok true) :
    machine.judge host target = .ok false ∨ ∃ refusal, machine.judge host target = .error refusal := by
  cases judged : machine.judge host target with
  | error refusal => exact .inr ⟨refusal, rfl⟩
  | ok moves =>
    cases moves with
    | false => exact .inl rfl
    | true => exact absurd judged declined

theorem perform_declined (declined : machine.judge host target ≠ .ok true) (call : Call H α) :
    (machine.perform now target call host).host = host := by
  rcases judge_declined declined with kept | ⟨refusal, refused⟩
  · rw [perform_kept kept]
  · rw [perform_refused refused]

theorem perform_failed (granted : machine.judge host target = .ok true) (call : Call H α)
    (fails : (call.effect (machine.stored now target host)).value = some ending) :
    machine.perform now target call host =
      ⟨ending, (call.effect (machine.stored now target host)).host,
        .moved (machine.step now target host) :: (call.effect (machine.stored now target host)).events⟩ := by
  cases call with
  | change => cases fails
  | changeStrict => cases fails
  | changeWith effect =>
    obtain ⟨failure, result, rfl⟩ := SideEffect.ends_some fails
    simp [perform, changeWith, granted, carryOutWith, result, Call.effect, SideEffect.ends_run]
  | changeStrictWith ofRefusal effect =>
    obtain ⟨failure, result, rfl⟩ := SideEffect.ends_some fails
    simp [perform, changeStrictWith, granted, carryOutWith, result, Call.effect, SideEffect.ends_run]

theorem perform_carried (granted : machine.judge host target = .ok true) (call : Call H α)
    (goes : (call.effect (machine.stored now target host)).value = none) :
    machine.perform now target call host =
      ⟨call.answer true,
        (machine.notify (machine.step now target host) (call.effect (machine.stored now target host)).host).host,
        .moved (machine.step now target host) :: (call.effect (machine.stored now target host)).events ++
          (machine.notify (machine.step now target host)
            (call.effect (machine.stored now target host)).host).events⟩ := by
  cases call with
  | change => simp [perform, change, granted, carryOut, Call.effect, Call.answer]
  | changeStrict => simp [perform, changeStrict, granted, carryOut, Call.effect, Call.answer]
  | changeWith effect =>
    have result := SideEffect.ends_none.mp goes
    simp [perform, changeWith, granted, carryOutWith, result, Call.effect, Call.answer, SideEffect.ends_run]
  | changeStrictWith ofRefusal effect =>
    have result := SideEffect.ends_none.mp goes
    simp [perform, changeStrictWith, granted, carryOutWith, result, Call.effect, Call.answer, SideEffect.ends_run]

-- A request knows its attribute by the name and by what it may do, and nothing else.
theorem perform_congr {twin : Machine H} (named : twin.subject.name = machine.subject.name)
    (observers : twin.observers = machine.observers)
    (judged : twin.judge host target = machine.judge host target) (call : Call H α) :
    twin.perform now target call host = machine.perform now target call host := by
  have step : twin.step now target host = machine.step now target host := by
    rw [step, step, current, current, named]
  have stored : twin.stored now target host = machine.stored now target host := by
    rw [stored, stored, step, named]
  cases answer : machine.judge host target with
  | error refusal =>
    rw [answer] at judged
    rw [perform_refused judged, perform_refused answer]
  | ok moves =>
    rw [answer] at judged
    cases moves with
    | false => rw [perform_kept judged, perform_kept answer]
    | true =>
      cases result : (call.effect (machine.stored now target host)).value with
      | some ending =>
        have same := result
        rw [← stored] at same
        rw [perform_failed judged call same, perform_failed answer call result, stored, step]
      | none =>
        have same := result
        rw [← stored] at same
        rw [perform_carried judged call same, perform_carried answer call result, stored, step, notify, notify,
          observers]

end Machine

-- A request with its time, its target and the way it is put.
structure Ask (H : Type) : Type 1 where
  {Answer : Type}
  now : Instant
  target : StateName
  call : Call H Answer

-- What one request of a run shows.
structure Turn (H : Type) : Type 1 where
  before : H
  ask : Ask H
  answer : ask.Answer
  after : H

namespace Machine

variable {H : Type} [Stateful H]

def turn (machine : Machine H) (host : H) (ask : Ask H) : Turn H :=
  ⟨host, ask, (machine.perform ask.now ask.target ask.call host).value,
    (machine.perform ask.now ask.target ask.call host).host⟩

def turns (machine : Machine H) (host : H) : List (Ask H) → List (Turn H)
  | [] => []
  | ask :: rest => machine.turn host ask :: machine.turns (machine.turn host ask).after rest

def leave (machine : Machine H) (host : H) (asks : List (Ask H)) : H :=
  asks.foldl (fun host ask => (machine.turn host ask).after) host

end Machine
end StateAttributes

import StateAttributes.Proofs.Notes

namespace StateAttributes

def nextRecord [Stateful H] (host : H) : Nat := (Stateful.values host).history.length

namespace Registry

variable {H : Type}

def machines (registry : Registry H) : List (Machine H) := registry.attributes.map registry.machineOf

theorem machines_observers {registry : Registry H} {machine : Machine H} (own : machine ∈ registry.machines) :
    machine.observers = registry.observers := by
  obtain ⟨attr, -, rfl⟩ := List.mem_map.mp own
  rfl

variable [Stateful H]

mutual
-- A run of a piece of code with its notes. Code may do anything beside the history, and make requests to
-- the registry, also in its side effects; the observers that a request calls are such code again.
inductive Runs (registry : Registry H) : {α : Type} → Act H α → H → List Note → Prop where
  | aside {α : Type} {act : Act H α} {host : H}
      (silent : ∀ event ∈ (act host).events, event.isReport = false)
      (keeps : (Stateful.values (act host).host).history = (Stateful.values host).history) :
      Runs registry act host []
  | andThen {α β : Type} {act : Act H β} {first : Act H α} {next : α → Act H β} {host : H}
      (parts : act host = (first >>= next) host) (before : Runs registry first host notes)
      (behind : Runs registry (next (first host).value) (first host).host more) :
      Runs registry act host (notes ++ more)
  | kept {α : Type} {call : Call H α} {machine : Machine H} (own : machine ∈ registry.machines)
      (kept : machine.judge host target = .ok false) :
      Runs registry (machine.perform now target call) host [.kept]
  | refused {α : Type} {call : Call H α} {machine : Machine H} (own : machine ∈ registry.machines)
      (refused : machine.judge host target = .error refusal) :
      Runs registry (machine.perform now target call) host [.refused call.strict refusal]
  | failed {α : Type} {call : Call H α} {ending : α} {machine : Machine H} (own : machine ∈ registry.machines)
      (granted : machine.judge host target = .ok true)
      (fails : (call.effect (machine.stored now target host)).value = some ending)
      (effect : Runs registry call.effect (machine.stored now target host) notes) :
      Runs registry (machine.perform now target call) host
        (.moved (nextRecord host) (machine.step now target host) :: (notes ++ [.failed (nextRecord host)]))
  | carried {α : Type} {call : Call H α} {machine : Machine H} (own : machine ∈ registry.machines)
      (granted : machine.judge host target = .ok true)
      (goes : (call.effect (machine.stored now target host)).value = none)
      (effect : Runs registry call.effect (machine.stored now target host) notes)
      (told : Tells registry (nextRecord host) (machine.step now target host) 0 machine.observers
        (call.effect (machine.stored now target host)).host more) :
      Runs registry (machine.perform now target call) host
        (.moved (nextRecord host) (machine.step now target host) :: (notes ++ more))
-- The observers from a position on hear of one record, each on the host that the one before has left.
inductive Tells (registry : Registry H) :
    Nat → Transition → Nat → List (Observer H) → H → List Note → Prop where
  | done : Tells registry record transition position [] host []
  | next {rest : List (Observer H)} (hears : Runs registry (observer transition) host notes)
      (others : Tells registry record transition (position + 1) rest (observer transition host).host more) :
      Tells registry record transition position (observer :: rest) host
        (.heard record position transition :: (notes ++ more))
end

variable {registry : Registry H}

theorem stored_history [LawfulStateful H] (machine : Machine H) (now : Instant) (target : StateName) (host : H) :
    (Stateful.values (machine.stored now target host)).history =
      (Stateful.values host).history.record (machine.step now target host) := by
  rw [Machine.stored, LawfulStateful.values_setValues]
  rfl

-- One case for each rule. What an observer or a side effect sets off is a part of the derivation, so it has
-- its own account before the request around it is looked at.
mutual
theorem Runs.reported [LawfulStateful H] {α : Type} {act : Act H α} {host : H} {notes : List Note} :
    registry.Runs act host notes →
      Reported registry.observers.length (fun _ => []) (Stateful.values host).history
        (Stateful.values (act host).host).history (act host).events notes
  | .aside silent keeps => by
    rw [keeps]
    exact .silent silent
  | .andThen parts before behind => by
    have first := Runs.reported before
    have second := Runs.reported behind
    rw [parts]
    exact first.append second fun _ _ => rfl
  | .kept own kept => by
    rw [Machine.perform_kept kept]
    exact .still .kept rfl
  | .refused own refused => by
    rw [Machine.perform_refused refused]
    exact .still (.refused _ _) rfl
  | .failed own granted fails effect => by
    have reported := Runs.reported effect
    rw [stored_history] at reported
    rw [Machine.perform_failed granted _ fails]
    exact reported.failed
  | .carried own granted goes effect told => by
    have reported := Runs.reported effect
    rw [stored_history] at reported
    have heard := Tells.reported told (reported.stays (History.record_last _ _))
    rw [machines_observers own, ← List.range_eq_range'] at heard
    rw [Machine.perform_carried granted _ goes, Machine.notify, machines_observers own, List.cons_append]
    refine (reported.append heard ?_).carried
    intro record low
    rw [History.length_record] at low
    exact if_neg (Nat.ne_of_gt low)
theorem Tells.reported [LawfulStateful H] {observers : List (Observer H)} {host : H} {record position : Nat}
    {transition : Transition} {notes : List Note} :
    registry.Tells record transition position observers host notes →
      (Stateful.values host).history.transitions[record]? = some transition →
        Reported registry.observers.length
          (fun other => if other = record then List.range' position observers.length else [])
          (Stateful.values host).history
          (Stateful.values (notifyAll transition position observers host).host).history
          (notifyAll transition position observers host).events notes
  | .done, stands => by
    simpa [notifyAll] using Reported.silent (List.forall_mem_nil _)
  | .next hears others, stands => by
    have first := Runs.reported hears
    have rest := Tells.reported others (first.stays stands)
    have below : record < (Stateful.values host).history.length := (List.getElem?_eq_some_iff.mp stands).1
    have whole := (first.append rest fun other low => if_neg (by omega)).hears stands position
    simp only [notifyAll, Act.bind_run, Act.emit_run, List.cons_append, List.nil_append]
    refine whole.of_due fun other => ?_
    by_cases own : other = record
    · simp [own, List.range'_succ]
    · simp [own]
end

-- What the log, the history and the observers are told in a run that starts from any history.
structure Accounted (registry : Registry H) (before after : History) (events : List Event) (notes : List Note) :
    Prop where
  moves : after.transitions = before.transitions ++ events.filterMap Event.transition?
  log : events.filter Event.isReport = notes.filterMap Note.event?
  heard : ∀ record, before.length ≤ record → record < after.length →
    hearers record notes = if .failed record ∈ notes then [] else List.range registry.observers.length
  earlier : ∀ record, record < before.length → hearers record notes = []
  genuine : ∀ note ∈ notes, ∀ record transition, note.record? = some (record, transition) →
    after.transitions[record]? = some transition

-- Code that only makes requests, and whose requests only set off such code, is covered by a run from
-- every host.
def Requesting (registry : Registry H) (act : Act H α) : Prop := ∀ host, ∃ notes, registry.Runs act host notes

theorem tells_requesting {observers : List (Observer H)}
    (requesting : ∀ observer ∈ observers, ∀ transition, registry.Requesting (observer transition))
    (record position : Nat) (transition : Transition) (host : H) :
    ∃ notes, registry.Tells record transition position observers host notes := by
  induction observers generalizing position host with
  | nil => exact ⟨[], .done⟩
  | cons observer rest ih =>
    obtain ⟨notes, hears⟩ := requesting observer List.mem_cons_self transition host
    have later := fun other member => requesting other (List.mem_cons_of_mem _ member)
    obtain ⟨more, others⟩ := ih later (position + 1) (observer transition host).host
    exact ⟨_, .next hears others⟩

theorem perform_requesting {machine : Machine H} (own : machine ∈ registry.machines)
    (requesting : ∀ observer ∈ registry.observers, ∀ transition, registry.Requesting (observer transition))
    {call : Call H α} (effect : registry.Requesting call.effect) (now : Instant) (target : StateName) :
    registry.Requesting (machine.perform now target call) := by
  intro host
  cases judged : machine.judge host target with
  | error refusal => exact ⟨_, .refused own judged⟩
  | ok moves =>
    cases moves with
    | false => exact ⟨_, .kept own judged⟩
    | true =>
      obtain ⟨notes, runs⟩ := effect (machine.stored now target host)
      cases result : (call.effect (machine.stored now target host)).value with
      | some ending => exact ⟨_, .failed own judged result runs⟩
      | none =>
        rw [← machines_observers own] at requesting
        obtain ⟨more, told⟩ := tells_requesting requesting (nextRecord host) 0 (machine.step now target host)
          (call.effect (machine.stored now target host)).host
        exact ⟨_, .carried own judged result runs told⟩

theorem runs_accounted [LawfulStateful H] {act : Act H α} {host : H} {notes : List Note}
    (runs : registry.Runs act host notes) :
    registry.Accounted (Stateful.values host).history (Stateful.values (act host).host).history (act host).events
      notes := by
  have reported := runs.reported
  constructor
  case moves => rw [reported.moves, reported.history]
  case log => exact reported.log
  case heard => exact reported.heard
  case earlier => exact reported.earlier
  case genuine => exact reported.genuine

theorem Runs.followed {act : Act H α} {rest : Act H β} (first : registry.Runs act host notes)
    (left : (act host).host = after) (later : registry.Runs rest after more) :
    registry.Runs (act >>= fun _ => rest) host (notes ++ more) := by
  subst left
  exact .andThen rfl first later

-- Whoever is told of a first reading asks the same desk for the second one, before the clerk has heard of
-- the first.
def clerk : Observer Values := fun _ => pure ()

def relay : Observer Values := fun transition => do
  if transition.target = "first" then
    let _ ← (⟨.document, [clerk, clerk]⟩ : Machine Values).change default "second"

def desk : Registry Values := (((empty : Registry Values).register .document).1.observe relay).observe clerk

def deskDay : Act Values Unit := do
  let _ ← (desk.machineOf .document).change default "first"
  let _ ← (desk.machineOf .document).changeWith default "published" file
  let _ ← (desk.machineOf .document).changeStrict default "draft"
  let _ ← (desk.machineOf .document).change default "published"
  return ()

def firstReading : Transition := ⟨"state", some "draft", "first", default⟩
def secondReading : Transition := ⟨"state", some "first", "second", default⟩
def publication : Transition := ⟨"state", some "second", "published", default⟩

def heldAt (value : StateName) (records : List Transition) : Values :=
  ⟨.ofList [("state", some value)], .empty, ⟨records⟩⟩

def deskNotes : List Note :=
  [.moved 0 firstReading, .heard 0 0 firstReading, .moved 1 secondReading, .heard 1 0 secondReading,
    .heard 1 1 secondReading, .heard 0 1 firstReading, .moved 2 publication, .failed 2,
    .refused true (.unreachable "state" (some "published") "draft"), .kept]

theorem desk_quiet {act : Act Values α} {host : Values} (silent : (act host).events = [])
    (keeps : (act host).host.history = host.history) : desk.Runs act host [] := by
  refine .aside ?_ keeps
  rw [silent]
  exact List.forall_mem_nil _

theorem desk_own : desk.machineOf .document ∈ desk.machines := List.mem_singleton_self _

theorem relay_runs :
    desk.Runs (relay firstReading) ((desk.machineOf .document).stored default "first" desk.newValues)
      [.moved 1 secondReading, .heard 1 0 secondReading, .heard 1 1 secondReading] := by
  have permits : Attribute.documentStates.Permits "first" "second" :=
    ⟨.one "second", by decide, "second", by decide, .inl rfl⟩
  have second : desk.Runs ((desk.machineOf .document).perform default "second" .change)
      ((desk.machineOf .document).stored default "first" desk.newValues)
      [.moved 1 secondReading, .heard 1 0 secondReading, .heard 1 1 secondReading] :=
    .carried desk_own (document_granted rfl rfl (by decide) (by decide) permits) rfl (desk_quiet rfl rfl)
      (.next (desk_quiet rfl rfl) (.next (desk_quiet rfl rfl) .done))
  -- The relay calls clerks in the place of the desk's own observers, which leave the second reading alone.
  have parts : relay firstReading ((desk.machineOf .document).stored default "first" desk.newValues) =
      ((desk.machineOf .document).perform default "second" .change >>= fun _ => pure ())
        ((desk.machineOf .document).stored default "first" desk.newValues) := rfl
  exact .andThen parts second (desk_quiet rfl rfl)

theorem deskDay_runs : desk.Runs deskDay desk.newValues deskNotes := by
  have review : Attribute.documentStates.Permits "draft" "first" :=
    ⟨.one "review", by decide, "review", by decide, .inr ⟨_, .tail _ (.head _), by decide⟩⟩
  have filing : Attribute.documentStates.Permits "second" "published" :=
    ⟨.many ["published", "review"], by decide, "published", by decide, .inl rfl⟩
  have first : desk.Runs ((desk.machineOf .document).perform default "first" .change) desk.newValues
      [.moved 0 firstReading, .heard 0 0 firstReading, .moved 1 secondReading, .heard 1 0 secondReading,
        .heard 1 1 secondReading, .heard 0 1 firstReading] :=
    .carried desk_own (document_granted rfl rfl (by decide) (by decide) review) rfl (desk_quiet rfl rfl)
      (.next relay_runs (.next (desk_quiet rfl rfl) .done))
  have second : desk.Runs ((desk.machineOf .document).perform default "published" (.changeWith file))
      (heldAt "second" [firstReading, secondReading]) [.moved 2 publication, .failed 2] :=
    .failed desk_own (document_granted rfl rfl (by decide) (by decide) filing) rfl (desk_quiet rfl rfl)
  have third : desk.Runs ((desk.machineOf .document).perform default "draft" .changeStrict)
      (heldAt "published" [firstReading, secondReading, publication])
      [.refused true (.unreachable "state" (some "published") "draft")] :=
    .refused desk_own (by decide +kernel)
  have fourth : desk.Runs ((desk.machineOf .document).perform default "published" .change)
      (heldAt "published" [firstReading, secondReading, publication]) [.kept] :=
    .kept desk_own (Machine.judge_same rfl)
  have done : desk.Runs (pure () : Act Values Unit)
      (heldAt "published" [firstReading, secondReading, publication]) [] := desk_quiet rfl rfl
  exact first.followed (by decide +kernel) (second.followed (by decide +kernel)
    (third.followed (by decide +kernel) (fourth.followed (by decide +kernel) done)))

theorem deskDay_accounted :
    desk.Runs deskDay desk.newValues deskNotes ∧
      desk.Accounted desk.newValues.history (deskDay desk.newValues).host.history (deskDay desk.newValues).events
        deskNotes :=
  ⟨deskDay_runs, runs_accounted deskDay_runs⟩

end Registry
end StateAttributes

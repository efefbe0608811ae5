import StateAttributes.Proofs.Independence

namespace StateAttributes

-- A host that a run comes to, and whether a commit has led there.
structure Stop (H : Type) where
  host : H
  commits : Bool

-- The value of a name as it was at the last commit, and none if there was no commit.
def atLastCommit [Stateful H] (stops : List (Stop H)) (name : String) : Option StateName :=
  ((stops.filter (·.commits)).getLast?).bind fun stop => (Stateful.values stop.host).get name

-- A run of a piece of code, with the hosts that it comes to. Code may overwrite slots, commit and make
-- requests, and the observers and the side effect of a request are such code again; beside the values it
-- may do anything.
inductive Handles [Stateful H] : {α : Type} → Act H α → H → List (Stop H) → Prop where
  | aside {act : Act H α} (keeps : Stateful.values (act host).host = Stateful.values host) :
      Handles act host [⟨(act host).host, false⟩]
  | write {act : Act H α} (writes : Stateful.values (act host).host = (Stateful.values host).set name value) :
      Handles act host [⟨(act host).host, false⟩]
  | commit {act : Act H α} (commits : Stateful.values (act host).host = (Stateful.values host).commit) :
      Handles act host [⟨(act host).host, true⟩]
  | andThen {act : Act H β} {first : Act H α} {next : α → Act H β}
      (parts : act host = (first >>= next) host) (before : Handles first host stops)
      (behind : Handles (next (first host).value) (first host).host more) : Handles act host (stops ++ more)
  | declined {machine : Machine H} {call : Call H α} (declined : machine.judge host target ≠ .ok true) :
      Handles (machine.perform now target call) host []
  | failed {machine : Machine H} {call : Call H α} (granted : machine.judge host target = .ok true)
      (fails : (call.effect (machine.stored now target host)).value = some ending)
      (effect : Handles call.effect (machine.stored now target host) stops) :
      Handles (machine.perform now target call) host (⟨machine.stored now target host, false⟩ :: stops)
  | carried {machine : Machine H} {call : Call H α} (granted : machine.judge host target = .ok true)
      (goes : (call.effect (machine.stored now target host)).value = none)
      (effect : Handles call.effect (machine.stored now target host) stops)
      (told : Handles (machine.notify (machine.step now target host))
        (call.effect (machine.stored now target host)).host more) :
      Handles (machine.perform now target call) host
        (⟨machine.stored now target host, false⟩ :: (stops ++ more))

section

variable {H : Type} [Stateful H] {host after : H} {earlier stops more : List (Stop H)}

theorem atLastCommit_kept (stops : List (Stop H)) (host : H) :
    atLastCommit (stops ++ [⟨host, false⟩]) = atLastCommit stops := by
  funext name
  simp [atLastCommit]

theorem atLastCommit_commit (stops : List (Stop H)) (host : H) (name : String) :
    atLastCommit (stops ++ [⟨host, true⟩]) name = (Stateful.values host).get name := by
  simp [atLastCommit]

-- The committed slots hold what was held at the last commit of the stops so far.
def Anchored (stops : List (Stop H)) (host : H) : Prop :=
  ∀ name, (Stateful.values host).committed.get name = atLastCommit stops name

theorem Anchored.kept (anchored : Anchored stops host)
    (same : (Stateful.values after).committed = (Stateful.values host).committed) :
    Anchored (stops ++ [⟨after, false⟩]) after := by
  intro name
  rw [same, atLastCommit_kept, anchored name]

theorem Anchored.committed (stops : List (Stop H)) (same : Stateful.values after = (Stateful.values host).commit) :
    Anchored (stops ++ [⟨after, true⟩]) after := by
  intro name
  rw [atLastCommit_commit, same]
  rfl

-- Every stop is anchored in the stops before it and its own.
def AnchoredFrom (earlier : List (Stop H)) : List (Stop H) → Prop
  | [] => True
  | stop :: later => Anchored (earlier ++ [stop]) stop.host ∧ AnchoredFrom (earlier ++ [stop]) later

theorem AnchoredFrom.append (first : AnchoredFrom earlier stops) (later : AnchoredFrom (earlier ++ stops) more) :
    AnchoredFrom earlier (stops ++ more) := by
  induction stops generalizing earlier with
  | nil => simpa using later
  | cons stop rest ih =>
    obtain ⟨own, behind⟩ := first
    refine ⟨own, ih behind ?_⟩
    rwa [List.append_assoc]

theorem AnchoredFrom.stop {stop : Stop H} (anchored : AnchoredFrom earlier (stops ++ stop :: more)) :
    Anchored (earlier ++ stops ++ [stop]) stop.host := by
  induction stops generalizing earlier with
  | nil =>
    rw [List.append_nil]
    exact anchored.1
  | cons first rest ih =>
    have later := ih anchored.2
    rwa [List.append_assoc earlier] at later

theorem Anchored.moved [LawfulStateful H] {machine : Machine H} (anchored : Anchored stops host) :
    Anchored (stops ++ [⟨machine.stored now target host, false⟩]) (machine.stored now target host) := by
  apply anchored.kept
  rw [Machine.stored, LawfulStateful.values_setValues]
  rfl

-- The induction goes along the run, with the stops before it carried in front: a piece of code starts where
-- the stops so far have led.
theorem Handles.anchored [LawfulStateful H] {α : Type} {act : Act H α} (handles : Handles act host stops)
    (anchored : Anchored earlier host) :
    AnchoredFrom earlier stops ∧ Anchored (earlier ++ stops) (act host).host := by
  induction handles generalizing earlier with
  | aside keeps =>
    have next := anchored.kept (congrArg Values.committed keeps)
    exact ⟨⟨next, trivial⟩, next⟩
  | write writes =>
    have next := anchored.kept (by rw [writes]; rfl)
    exact ⟨⟨next, trivial⟩, next⟩
  | commit commits =>
    have next := Anchored.committed earlier commits
    exact ⟨⟨next, trivial⟩, next⟩
  | andThen parts _ _ firstIh nextIh =>
    obtain ⟨first, middle⟩ := firstIh anchored
    obtain ⟨later, last⟩ := nextIh middle
    rw [parts, ← List.append_assoc]
    exact ⟨first.append later, last⟩
  | declined declined =>
    rw [Machine.perform_declined declined, List.append_nil]
    exact ⟨trivial, anchored⟩
  | failed granted fails _ effectIh =>
    obtain ⟨inner, last⟩ := effectIh anchored.moved
    rw [List.append_assoc] at last
    rw [Machine.perform_failed granted _ fails]
    exact ⟨⟨anchored.moved, inner⟩, last⟩
  | carried granted goes _ _ effectIh toldIh =>
    obtain ⟨inner, middle⟩ := effectIh anchored.moved
    obtain ⟨told, last⟩ := toldIh middle
    rw [List.append_assoc, List.append_assoc] at last
    rw [Machine.perform_carried granted _ goes]
    exact ⟨⟨anchored.moved, inner.append told⟩, last⟩

-- What the values tell of one name that held `old` at the last commit. A name that holds nothing now, or
-- held nothing then, is told of like any other.
structure Values.NetChange (values : Values) (name : String) (old : Option StateName) : Prop where
  unchanged : values.changes? name = none ↔ old = values.get name
  changed : old ≠ values.get name → values.changes? name = some (old, values.get name)
  previous : values.previous name = if old = values.get name then none else old

theorem Values.netChange (values : Values) (name : String) :
    values.NetChange name (values.committed.get name) := by
  by_cases same : values.committed.get name = values.get name
  · have none : values.changes? name = none := if_pos same
    exact ⟨by simp [none, same], fun differ => absurd same differ, by simp [previous, none, same]⟩
  · have some : values.changes? name = some (values.committed.get name, values.get name) := if_neg same
    exact ⟨by simp [some, same], fun _ => some, by simp [previous, some, same]⟩

-- What a commit leaves, on any host: the values as they are, and nothing to tell of.
structure Settled (before after : H) : Prop where
  current : (Stateful.values after).current = (Stateful.values before).current
  history : (Stateful.values after).history = (Stateful.values before).history
  again : (Stateful.values after).commit = Stateful.values after
  quiet : (Stateful.values after).changedAttributes = []
  pending : ∀ registry : Registry H, registry.pendingChanges (Stateful.values after) = []
  idle : ∀ (registry : Registry H) (hook : LifecycleHook), registry.processChanges hook after = ⟨0, after, []⟩

end

theorem Values.commit_unchanged (values : Values) (name : String) : values.commit.changes? name = none :=
  if_pos rfl

theorem Values.changedAttributes_unchanged {values : Values} (unchanged : ∀ name, values.changes? name = none) :
    values.changedAttributes = [] := by
  simp [changedAttributes, unchanged]

theorem Registry.pendingChanges_unchanged {registry : Registry H} {values : Values}
    (unchanged : ∀ name, values.changes? name = none) : registry.pendingChanges values = [] := by
  rw [pendingChanges, List.filterMap_eq_nil_iff]
  intro attr _
  rw [unchanged, Option.map_none]

theorem settled_of_commit [Stateful H] {before after : H}
    (commits : Stateful.values after = (Stateful.values before).commit) : Settled before after := by
  have unchanged : ∀ name, (Stateful.values after).changes? name = none := by
    intro name
    rw [commits]
    exact (Stateful.values before).commit_unchanged name
  constructor
  case current => rw [commits]; rfl
  case history => rw [commits]; rfl
  case again => rw [commits]; rfl
  case quiet => exact Values.changedAttributes_unchanged unchanged
  case pending => exact fun registry => Registry.pendingChanges_unchanged unchanged
  case idle =>
    intro registry hook
    have none : registry.pendingChanges (Stateful.values after) = [] := Registry.pendingChanges_unchanged unchanged
    simp [Registry.processChanges, none, Registry.processAll]

-- A run from a new host: what it leaves and every host that it comes to tell of the net difference, and a
-- commit leaves nothing to tell of.
structure Tracked [Stateful H] (act : Act H α) (host : H) (stops : List (Stop H)) : Prop where
  ended : ∀ name, (Stateful.values (act host).host).NetChange name (atLastCommit stops name)
  passed : ∀ before stop later, stops = before ++ stop :: later →
    ∀ name, (Stateful.values stop.host).NetChange name (atLastCommit (before ++ [stop]) name)
  commits : ∀ before after : H, Stateful.values after = (Stateful.values before).commit → Settled before after

section

variable {H : Type} [Stateful H]

theorem Anchored.netChange {host : H} {stops : List (Stop H)} (anchored : Anchored stops host) (name : String) :
    (Stateful.values host).NetChange name (atLastCommit stops name) := by
  rw [← anchored name]
  exact (Stateful.values host).netChange name

theorem anchored_fresh {host : H}
    (fresh : Stateful.values host = .empty ∨ ∃ attributes, Stateful.values host = .initial attributes) :
    Anchored [] host := by
  intro name
  rcases fresh with empty | ⟨attributes, initial⟩
  · rw [empty]
    rfl
  · rw [initial]
    rfl

theorem handles_tracked [LawfulStateful H] {α : Type} {act : Act H α} {host : H} {stops : List (Stop H)}
    (fresh : Stateful.values host = .empty ∨ ∃ attributes, Stateful.values host = .initial attributes)
    (handles : Handles act host stops) : Tracked act host stops := by
  obtain ⟨midway, last⟩ := handles.anchored (anchored_fresh fresh)
  constructor
  case ended => exact last.netChange
  case passed =>
    rintro before stop later rfl
    exact midway.stop.netChange
  case commits => exact fun _ _ => settled_of_commit

-- Code is covered from every host as soon as its pieces are: no run is left out for where it starts.
def Handling (act : Act H α) : Prop := ∀ host, ∃ stops, Handles act host stops

theorem handling_bind {act : Act H α} {next : α → Act H β} (first : Handling act)
    (later : ∀ value, Handling (next value)) : Handling (act >>= next) := by
  intro host
  obtain ⟨stops, before⟩ := first host
  obtain ⟨more, behind⟩ := later (act host).value (act host).host
  exact ⟨_, .andThen rfl before behind⟩

theorem handling_notifyAll {observers : List (Observer H)}
    (handling : ∀ observer ∈ observers, ∀ transition, Handling (observer transition)) (transition : Transition)
    (position : Nat) : Handling (notifyAll transition position observers) := by
  induction observers generalizing position with
  | nil => exact fun _ => ⟨_, .aside rfl⟩
  | cons observer rest ih =>
    have later := fun other member => handling other (List.mem_cons_of_mem _ member)
    refine handling_bind (fun _ => ⟨_, .aside rfl⟩) fun _ => ?_
    exact handling_bind (handling observer List.mem_cons_self transition) fun _ => ih later (position + 1)

theorem handling_perform {machine : Machine H}
    (observers : ∀ observer ∈ machine.observers, ∀ transition, Handling (observer transition))
    {call : Call H α} (effect : Handling call.effect) (now : Instant) (target : StateName) :
    Handling (machine.perform now target call) := by
  intro host
  by_cases granted : machine.judge host target = .ok true
  · obtain ⟨stops, runs⟩ := effect (machine.stored now target host)
    cases result : (call.effect (machine.stored now target host)).value with
    | some ending => exact ⟨_, .failed granted result runs⟩
    | none =>
      obtain ⟨more, told⟩ := handling_notifyAll observers (machine.step now target host) 0
        (call.effect (machine.stored now target host)).host
      exact ⟨_, .carried granted result runs told⟩
  · exact ⟨[], .declined granted⟩

def Deed.Handling : Deed H → Prop
  | request _ ask => StateAttributes.Handling ask.call.effect
  | set _ _ => True
  | commit => True

theorem handling_does [LawfulStateful H] {registry : Registry H} {deed : Deed H}
    (observers : ∀ observer ∈ registry.observers, ∀ transition, Handling (observer transition))
    (deeds : deed.Handling) : Handling (registry.does deed) := by
  cases deed with
  | request attr ask => exact handling_perform observers deeds ask.now ask.target
  | set attr value => exact fun _ => ⟨_, .write (LawfulStateful.values_setValues _ _)⟩
  | commit => exact fun _ => ⟨_, .commit (LawfulStateful.values_setValues _ _)⟩

end

-- A keeper commits as soon as a first reading is through, in the middle of the request for it. The document
-- is then sent on, back to its first reading, and in the end nowhere.
def keeper : Observer Values := fun transition =>
  if transition.target = "first" then Act.modify Values.commit else return ()

def keptDocument : Machine Values := ⟨.document, [keeper]⟩

def keepersDay : Act Values Unit := do
  let _ ← keptDocument.change default "first"
  let _ ← keptDocument.set (some "second")
  let _ ← keptDocument.set (some "first")
  let _ ← keptDocument.set none
  return ()

theorem keepersDay_tracked : ∃ stops : List (Stop Values),
    Handles keepersDay (.initial [.document]) stops ∧ atLastCommit stops "state" = some "first" ∧
      Tracked keepersDay (.initial [.document]) stops := by
  have permits : Attribute.documentStates.Permits "draft" "first" :=
    ⟨.one "review", by decide, "review", by decide, .inr ⟨_, .tail _ (.head _), by decide⟩⟩
  have granted : keptDocument.judge (.initial [.document]) "first" = .ok true :=
    Registry.document_granted rfl rfl (by decide) (by decide) permits
  have told : Handles (keptDocument.notify (keptDocument.step default "first" (.initial [.document])))
      (keptDocument.stored default "first" (.initial [.document])) _ :=
    .andThen rfl (.aside rfl) (.andThen rfl (.commit rfl) (.aside rfl))
  have first : Handles (keptDocument.perform default "first" .change) (.initial [.document]) _ :=
    .carried granted rfl (.aside rfl) told
  have day : Handles keepersDay (.initial [.document]) _ :=
    .andThen rfl first (.andThen rfl (.write rfl) (.andThen rfl (.write rfl) (.andThen rfl (.write rfl) (.aside rfl))))
  exact ⟨_, day, by decide +kernel, handles_tracked (.inr ⟨_, rfl⟩) day⟩

end StateAttributes

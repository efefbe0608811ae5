import StateAttributes.Lifecycle
import StateAttributes.Proofs.Course
import StateAttributes.Proofs.Legality

namespace StateAttributes

-- A host gives back the values that were stored in it.
class LawfulStateful (H : Type) [Stateful H] : Prop where
  values_setValues : ∀ (host : H) (values : Values), Stateful.values (Stateful.setValues host values) = values

instance : LawfulStateful Values := ⟨fun _ _ => rfl⟩

-- What an act does to the host, without its answer and its account.
def Act.code (act : Act H α) (host : H) : H := (act host).host

def inTurn (codes : List (H → H)) (host : H) : H := codes.foldl (fun host code => code host) host

@[simp] theorem inTurn_nil (host : H) : inTurn [] host = host := rfl
@[simp] theorem inTurn_cons (code : H → H) (codes : List (H → H)) (host : H) :
    inTurn (code :: codes) host = inTurn codes (code host) := rfl

theorem inTurn_append (codes more : List (H → H)) (host : H) :
    inTurn (codes ++ more) host = inTurn more (inTurn codes host) := by
  simp [inTurn]

@[simp] theorem Act.code_pure (value : α) (host : H) : (Pure.pure value : Act H α).code host = host := rfl
@[simp] theorem Act.code_bind (act : Act H α) (next : α → Act H β) (host : H) :
    (act >>= next).code host = (next (act host).value).code (act.code host) := rfl
@[simp] theorem Act.code_emit (event : Event) (host : H) : (Act.emit event : Act H Unit).code host = host := rfl
@[simp] theorem Act.code_look (host : H) : Act.look.code host = host := rfl
@[simp] theorem Act.look_value (host : H) : (Act.look host).value = host := rfl

def Machine.told (machine : Machine H) (transition : Transition) : List (H → H) :=
  machine.observers.map fun observer => (observer transition).code

-- Behind a side effect nobody hears of the transition if the effect fails.
def Machine.toldAfter (machine : Machine H) (effect : SideEffect H ε) (transition : Transition) (moved : H) :
    List (H → H) :=
  match (effect moved).value with
  | .ok () => effect.code :: machine.told transition
  | .error _ => [effect.code]

theorem notifyAll_code (transition : Transition) (position : Nat) (observers : List (Observer H)) (host : H) :
    (notifyAll transition position observers).code host =
      inTurn (observers.map fun observer => (observer transition).code) host := by
  induction observers generalizing position host with
  | nil => rfl
  | cons observer rest ih =>
    simp only [notifyAll, Act.code_bind, Act.code_emit, ih, List.map_cons, inTurn_cons]

theorem Machine.notify_code (machine : Machine H) (transition : Transition) (host : H) :
    (machine.notify transition).code host = inTurn (machine.told transition) host :=
  notifyAll_code transition 0 machine.observers host

namespace Machine

variable {H : Type} [Stateful H] {machine : Machine H} {now : Instant} {target : StateName} {host : H}
  {code : H → H} {follow : Transition → H → List (H → H)}

@[simp] theorem move_value (machine : Machine H) (now : Instant) (target : StateName) (host : H) :
    (machine.move now target host).value = machine.step now target host := rfl
@[simp] theorem move_code (machine : Machine H) (now : Instant) (target : StateName) (host : H) :
    (machine.move now target).code host = machine.stored now target host := rfl

theorem carryOut_code (machine : Machine H) (now : Instant) (target : StateName) (host : H) :
    (machine.carryOut now target).code host =
      inTurn (machine.told (machine.step now target host)) (machine.stored now target host) := by
  simp [carryOut, notify_code]

theorem carryOutWith_code (machine : Machine H) (now : Instant) (target : StateName) (effect : SideEffect H ε)
    (host : H) :
    (machine.carryOutWith now target effect).code host =
      inTurn (machine.toldAfter effect (machine.step now target host) (machine.stored now target host))
        (machine.stored now target host) := by
  simp only [carryOutWith, Act.code_bind, move_value, move_code, toldAfter]
  cases (effect (machine.stored now target host)).value with
  | error failure => rfl
  | ok _ => simp [notify_code]

-- The four ways to ask for a target, each with what runs once the target is stored.
inductive Request (machine : Machine H) (now : Instant) (target : StateName) :
    (H → H) → (Transition → H → List (H → H)) → Prop where
  | change : Request machine now target (machine.change now target).code fun transition _ =>
      machine.told transition
  | changeStrict : Request machine now target (machine.changeStrict now target).code fun transition _ =>
      machine.told transition
  | changeWith (effect : SideEffect H ε) :
      Request machine now target (machine.changeWith now target effect).code (machine.toldAfter effect)
  | changeStrictWith (ofRefusal : Refusal → ε) (effect : SideEffect H ε) :
      Request machine now target (machine.changeStrictWith ofRefusal now target effect).code
        (machine.toldAfter effect)

theorem Request.granted (request : machine.Request now target code follow)
    (granted : machine.judge host target = .ok true) :
    code host =
      inTurn (follow (machine.step now target host) (machine.stored now target host))
        (machine.stored now target host) := by
  cases request with
  | change => simp [Machine.change, granted, carryOut_code]
  | changeStrict => simp [Machine.changeStrict, granted, carryOut_code]
  | changeWith effect => simp [Machine.changeWith, granted, carryOutWith_code]
  | changeStrictWith ofRefusal effect => simp [Machine.changeStrictWith, granted, carryOutWith_code]

theorem Request.declined (request : machine.Request now target code follow)
    (declined : machine.judge host target ≠ .ok true) : code host = host := by
  cases answer : machine.judge host target with
  | ok moves =>
    cases moves with
    | true => exact absurd answer declined
    | false =>
      cases request with
      | change => simp [Machine.change, answer]
      | changeStrict => simp [Machine.changeStrict, answer]
      | changeWith effect => simp [Machine.changeWith, answer]
      | changeStrictWith ofRefusal effect => simp [Machine.changeStrictWith, answer]
  | error refusal =>
    cases request with
    | change => simp [Machine.change, answer]
    | changeStrict => simp [Machine.changeStrict, answer]
    | changeWith effect => simp [Machine.changeWith, answer]
    | changeStrictWith ofRefusal effect => simp [Machine.changeStrictWith, answer]

end Machine

theorem runCallbacks_code (context : HookContext) (callbacks : List (Callback H)) (host : H) :
    (runCallbacks context callbacks).code host =
      inTurn (callbacks.map fun callback => (callback context).code) host := by
  induction callbacks generalizing host with
  | nil => rfl
  | cons callback rest ih => simp [runCallbacks, ih]

theorem Values.changes_differ {values : Values} (changed : values.changes? name = some pair) :
    pair.1 ≠ pair.2 := by
  simp only [changes?] at changed
  split at changed
  · cases changed
  · rename_i differ
    cases changed
    exact differ

namespace Registry

variable {H : Type} {registry : Registry H} {hook : LifecycleHook}

def called (registry : Registry H) (hook : LifecycleHook) (change : String × Option StateName × Option StateName) :
    List (H → H) :=
  (registry.callbacksOf hook).map fun callback => (callback ⟨change.1, hook, change.2.1, change.2.2⟩).code

theorem process_due {name : String} {old new : Option StateName} (differ : old ≠ new)
    (known : registry.spec? name ≠ none) :
    registry.process name hook old new = (do
      let ran ← runCallbacks ⟨name, hook, old, new⟩ (registry.callbacksOf hook)
      if ran then Act.emit (.calledBack ⟨name, hook, old, new⟩)
      return ran) :=
  if_neg (by simp [differ, known])

theorem process_code {name : String} {old new : Option StateName} (differ : old ≠ new)
    (known : registry.spec? name ≠ none) (host : H) :
    (registry.process name hook old new).code host = inTurn (registry.called hook (name, old, new)) host := by
  rw [process_due differ known]
  simp only [Act.code_bind, runCallbacks_code]
  split <;> rfl

theorem processAll_code {changes : List (String × Option StateName × Option StateName)}
    (due : ∀ change ∈ changes, change.2.1 ≠ change.2.2 ∧ registry.spec? change.1 ≠ none) (host : H) :
    (registry.processAll hook changes).code host = inTurn (changes.flatMap (registry.called hook)) host := by
  induction changes generalizing host with
  | nil => rfl
  | cons change rest ih =>
    obtain ⟨name, old, new⟩ := change
    obtain ⟨differ, known⟩ := due _ List.mem_cons_self
    have later := ih fun other member => due other (List.mem_cons_of_mem _ member)
    simp [processAll, process_code differ known, later, inTurn_append]

theorem pending_due {values : Values} :
    ∀ change ∈ registry.pendingChanges values, change.2.1 ≠ change.2.2 ∧ registry.spec? change.1 ≠ none := by
  intro change member
  obtain ⟨attr, registered, found⟩ := List.mem_filterMap.mp member
  obtain ⟨pair, changed, rfl⟩ := Option.map_eq_some_iff.mp found
  exact ⟨Values.changes_differ changed, spec_registered registered⟩

theorem processChanges_code [Stateful H] (registry : Registry H) (hook : LifecycleHook) (host : H) :
    (registry.processChanges hook).code host =
      inTurn ((registry.pendingChanges (Stateful.values host)).flatMap (registry.called hook)) host := by
  simp [processChanges, processAll_code pending_due]

-- A run works an agenda off and is seen in every host that it passes. Nothing on the agenda writes to
-- the values but a commit and the four requests, and these on registered attributes only; code of any
-- other kind has to come apart into such pieces. The observers of a machine need not be those of the
-- registry.
inductive Conduct [Stateful H] (registry : Registry H) : List (H → H) → H → List H → Prop where
  | done : Conduct registry [] host []
  | aside (keeps : Stateful.values (code host) = Stateful.values host)
      (rest : Conduct registry codes (code host) seen) :
      Conduct registry (code :: codes) host (code host :: seen)
  | commit (commits : Stateful.values (code host) = (Stateful.values host).commit)
      (rest : Conduct registry codes (code host) seen) :
      Conduct registry (code :: codes) host (code host :: seen)
  | granted {machine : Machine H} (member : machine.subject ∈ registry.attributes)
      (request : machine.Request now target code follow) (granted : machine.judge host target = .ok true)
      (rest : Conduct registry (follow (machine.step now target host) (machine.stored now target host) ++ codes)
        (machine.stored now target host) seen) :
      Conduct registry (code :: codes) host (machine.stored now target host :: seen)
  | declined {machine : Machine H} (member : machine.subject ∈ registry.attributes)
      (request : machine.Request now target code follow) (declined : machine.judge host target ≠ .ok true)
      (rest : Conduct registry codes host seen) : Conduct registry (code :: codes) host seen
  | process (hook : LifecycleHook)
      (rest : Conduct registry
        ((registry.pendingChanges (Stateful.values host)).flatMap (registry.called hook) ++ codes) host seen) :
      Conduct registry ((registry.processChanges hook).code :: codes) host seen
  | split (parts : code host = inTurn pieces host) (rest : Conduct registry (pieces ++ codes) host seen) :
      Conduct registry (code :: codes) host seen

variable [Stateful H] {host : H} {codes : List (H → H)} {seen : List H}

-- The agenda accounts for what the code does: the last host seen is the one that is left.
theorem Conduct.last (conduct : registry.Conduct codes host seen) : inTurn codes host ∈ host :: seen := by
  induction conduct with
  | done => exact List.mem_cons_self
  | aside _ _ ih => exact List.mem_cons_of_mem _ ih
  | commit _ _ ih => exact List.mem_cons_of_mem _ ih
  | granted _ request granted _ ih =>
    rw [inTurn_cons, request.granted granted, ← inTurn_append]
    exact List.mem_cons_of_mem _ ih
  | declined _ request declined _ ih =>
    rw [inTurn_cons, request.declined declined]
    exact ih
  | process hook _ ih =>
    rw [inTurn_cons, processChanges_code, ← inTurn_append]
    exact ih
  | split parts _ ih =>
    rw [inTurn_cons, parts, ← inTurn_append]
    exact ih

theorem Conduct.course [LawfulStateful H] (sound : registry.Sound) (conduct : registry.Conduct codes host seen)
    (course : registry.OnCourse (Stateful.values host)) :
    ∀ mid ∈ host :: seen, registry.OnCourse (Stateful.values mid) := by
  induction conduct with
  | done =>
    intro mid member
    rw [List.mem_singleton.mp member]
    exact course
  | aside keeps _ ih =>
    refine List.forall_mem_cons.mpr ⟨course, ih ?_⟩
    rw [keeps]
    exact course
  | commit commits _ ih =>
    refine List.forall_mem_cons.mpr ⟨course, ih ?_⟩
    rw [commits]
    exact commit_onCourse course
  | granted member _ granted _ ih =>
    -- Only here the course moves on, and what the request sets off runs on a host that is on course again.
    refine List.forall_mem_cons.mpr ⟨course, ih ?_⟩
    rw [Machine.stored, LawfulStateful.values_setValues]
    exact stored_onCourse sound member granted course
  | declined _ _ _ _ ih => exact ih course
  | process _ _ ih => exact ih course
  | split _ _ ih => exact ih course

theorem Conduct.append (conduct : registry.Conduct codes host seen)
    (later : registry.Conduct more (inTurn codes host) after) :
    registry.Conduct (codes ++ more) host (seen ++ after) := by
  induction conduct with
  | done => exact later
  | aside keeps _ ih => exact .aside keeps (ih later)
  | commit commits _ ih => exact .commit commits (ih later)
  | granted member request granted _ ih =>
    rw [inTurn_cons, request.granted granted, ← inTurn_append] at later
    have rest := ih later
    rw [List.append_assoc] at rest
    exact .granted member request granted rest
  | declined member request declined _ ih =>
    rw [inTurn_cons, request.declined declined] at later
    exact .declined member request declined (ih later)
  | process hook _ ih =>
    rw [inTurn_cons, processChanges_code, ← inTurn_append] at later
    have rest := ih later
    rw [List.append_assoc] at rest
    exact .process hook rest
  | split parts _ ih =>
    rw [inTurn_cons, parts, ← inTurn_append] at later
    have rest := ih later
    rw [List.append_assoc] at rest
    exact .split parts rest

theorem Conduct.andThen {first next : H → H} (parts : code host = next (first host))
    (before : registry.Conduct [first] host seen) (behind : registry.Conduct [next] (first host) after) :
    registry.Conduct [code] host (seen ++ after) := by
  have pieces : code host = inTurn [first, next] host := parts
  exact .split pieces (before.append behind)

-- Wherever it starts, the code does nothing that a run may not do.
def Orderly (registry : Registry H) (code : H → H) : Prop := ∀ host, ∃ seen, registry.Conduct [code] host seen

theorem orderly_all (orderly : ∀ code ∈ codes, registry.Orderly code) (host : H) :
    ∃ seen, registry.Conduct codes host seen := by
  induction codes generalizing host with
  | nil => exact ⟨[], .done⟩
  | cons code rest ih =>
    obtain ⟨seen, first⟩ := orderly code List.mem_cons_self host
    obtain ⟨after, later⟩ := ih (fun other member => orderly other (List.mem_cons_of_mem _ member)) (code host)
    exact ⟨seen ++ after, first.append later⟩

theorem orderly_aside (keeps : ∀ host, Stateful.values (code host) = Stateful.values host) :
    registry.Orderly code :=
  fun host => ⟨_, .aside (keeps host) .done⟩

theorem orderly_bind {act : Act H α} {next : α → Act H β} (first : registry.Orderly act.code)
    (later : ∀ value, registry.Orderly (next value).code) : registry.Orderly (act >>= next).code := by
  intro host
  obtain ⟨seen, before⟩ := first host
  obtain ⟨after, behind⟩ := later (act host).value (act.code host)
  exact ⟨seen ++ after, before.andThen (Act.code_bind act next host) behind⟩

-- A request keeps to the rules as soon as all that it sets off does.
theorem orderly_request {machine : Machine H} (member : machine.subject ∈ registry.attributes)
    (request : machine.Request now target code follow)
    (orderly : ∀ transition moved, ∀ code ∈ follow transition moved, registry.Orderly code) :
    registry.Orderly code := by
  intro host
  by_cases granted : machine.judge host target = .ok true
  · obtain ⟨seen, rest⟩ := orderly_all (orderly (machine.step now target host) (machine.stored now target host))
      (machine.stored now target host)
    exact ⟨_, .granted member request granted (rest.append .done)⟩
  · exact ⟨_, .declined member request granted .done⟩

theorem orderly_process (orderly : ∀ change, ∀ code ∈ registry.called hook change, registry.Orderly code) :
    registry.Orderly (registry.processChanges hook).code := by
  intro host
  have each : ∀ code ∈ (registry.pendingChanges (Stateful.values host)).flatMap (registry.called hook),
      registry.Orderly code := by
    intro code member
    obtain ⟨change, -, called⟩ := List.mem_flatMap.mp member
    exact orderly change code called
  obtain ⟨seen, rest⟩ := orderly_all each host
  exact ⟨_, .process hook (rest.append .done)⟩

theorem Conduct.inOrder [LawfulStateful H] (sound : registry.Sound)
    (fresh : Stateful.values host = registry.newValues) (conduct : registry.Conduct codes host seen) :
    ∀ mid ∈ host :: seen, registry.InOrder mid := by
  intro mid member
  have start : registry.OnCourse (Stateful.values host) := by
    rw [fresh]
    exact newValues_onCourse sound
  exact onCourse_inOrder sound (conduct.course sound start mid member)

-- Every host that a run passes, from a fresh one on, is in order, and so is the one that it ends with.
theorem conduct_inOrder [LawfulStateful H] {registry : Registry H} {host : H} {codes : List (H → H)}
    {seen : List H} (built : registry.Built) (fresh : Stateful.values host = registry.newValues)
    (conduct : registry.Conduct codes host seen) :
    inTurn codes host ∈ host :: seen ∧ ∀ mid ∈ host :: seen, registry.InOrder mid :=
  ⟨conduct.last, conduct.inOrder built.sound fresh⟩

-- A reading room: whoever is told of a first reading asks for the second one at once, and the archive
-- that published documents are to be filed in is full.
def forward : Observer Values := fun transition =>
  if transition.target = "first" then do
    let _ ← (⟨.document, []⟩ : Machine Values).change default "second"
    return ()
  else return ()

def readingRoom : Registry Values := ((empty : Registry Values).register .document).1.observe forward

def file : SideEffect Values String := fun values => ⟨.error "the archive is full", values, []⟩

def readingDay : List (Values → Values) :=
  [((readingRoom.machineOf .document).change default "first").code,
    ((readingRoom.machineOf .document).changeWith default "published" file).code,
    Values.commit]

theorem document_granted {machine : Machine Values} {values : Values} (subject : machine.subject = .document)
    (held : machine.current values = some source) (moves : some source ≠ some target)
    (leaf : target ∈ Attribute.documentStates.leafNames)
    (permits : Attribute.documentStates.Permits source target) : machine.judge values target = .ok true := by
  have compiled : Attribute.compile "state" "draft" [] {} Attribute.documentStates = .ok machine.subject := by
    rw [subject]
    rfl
  exact Machine.verdict_judge (Attribute.compiled_from compiled) (.permitted (held ▸ moves) leaf held permits)

-- The second step is made by the observer in the middle of the first, and the third stays although what
-- was to follow it fails.
theorem readingDay_conduct : ∃ seen, readingRoom.Conduct readingDay readingRoom.newValues seen := by
  have registered : Attribute.document ∈ readingRoom.attributes := List.mem_singleton_self _
  have draft : Attribute.documentStates.Permits "draft" "first" :=
    ⟨.one "review", by decide, "review", by decide, .inr ⟨_, .tail _ (.head _), by decide⟩⟩
  have first : Attribute.documentStates.Permits "first" "second" :=
    ⟨.one "second", by decide, "second", by decide, .inl rfl⟩
  have second : Attribute.documentStates.Permits "second" "published" :=
    ⟨.many ["published", "review"], by decide, "published", by decide, .inl rfl⟩
  apply Exists.intro
  apply Conduct.granted registered .change (document_granted rfl rfl (by decide) (by decide) draft)
  apply Conduct.split (show _ = inTurn [((⟨.document, []⟩ : Machine Values).change default "second").code] _ from rfl)
  apply Conduct.granted registered .change (document_granted rfl rfl (by decide) (by decide) first)
  apply Conduct.granted registered (.changeWith file) (document_granted rfl rfl (by decide) (by decide) second)
  apply Conduct.aside (show Stateful.values (file.code _) = Stateful.values _ from rfl)
  exact .commit rfl .done

theorem readingDay_inOrder : ∃ seen : List Values,
    readingRoom.Built ∧ readingRoom.Conduct readingDay readingRoom.newValues seen ∧
      inTurn readingDay readingRoom.newValues ∈ readingRoom.newValues :: seen ∧
      ∀ mid ∈ readingRoom.newValues :: seen, readingRoom.InOrder mid := by
  obtain ⟨seen, conduct⟩ := readingDay_conduct
  have built : readingRoom.Built :=
    .observe (.register .empty ⟨"state", some "draft", [], some Attribute.documentStates, {}⟩ rfl) forward
  exact ⟨seen, built, conduct, conduct_inOrder built rfl conduct⟩

end Registry
end StateAttributes

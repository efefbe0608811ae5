import StateAttributes.Proofs.Edits
import StateAttributes.Proofs.ScriptedRun

namespace StateAttributes

namespace Registry

variable {H : Type} [Stateful H] {registry : Registry H} {deed : Deed H} {host : H} {name : String}

def KeepsValues (registry : Registry H) : Prop :=
  ∀ observer ∈ registry.observers, ∀ transition, (observer transition).KeepsValues

def does (registry : Registry H) : (deed : Deed H) → Act H deed.Answer
  | .request attr ask => (registry.machineOf attr).perform ask.now ask.target ask.call
  | .set attr value => (registry.machineOf attr).set value
  | .commit => Act.modify fun host => Stateful.setValues host (Stateful.values host).commit

def after (registry : Registry H) (host : H) (deeds : List (Deed H)) : H :=
  deeds.foldl (fun host deed => (registry.does deed host).host) host

def ending (registry : Registry H) : (deed : Deed H) → H → Option deed.Answer
  | .request attr ask, host => (registry.machineOf attr).ending ask.now ask.target ask.call host
  | .set _ _, _ => none
  | .commit, _ => none

-- A deed makes the same of two hosts: it is judged in one way and does one thing to the values. A side effect
-- may take its word from anywhere on the host, the log of an observer included, and where its own word is
-- another one, so is the answer; nothing else tells in it.
structure Agrees (registry : Registry H) (deed : Deed H) (one other : H) : Prop where
  judgement : ∀ attr ask, deed = .request attr ask →
    (registry.machineOf attr).judge one ask.target = (registry.machineOf attr).judge other ask.target
  edit : deed.edit (Stateful.values one) = deed.edit (Stateful.values other)
  answer : (registry.does deed one).value = (registry.does deed other).value ↔
    registry.ending deed one = registry.ending deed other
  steady : deed.Steady → (registry.does deed one).value = (registry.does deed other).value

theorem judge_values (registry : Registry H) (attr : Attribute) (host : H) (target : StateName) :
    (registry.machineOf attr).judge host target =
      (⟨attr, []⟩ : Machine Values).judge (Stateful.values host) target :=
  Machine.judge_of_get rfl target

theorem does_values [LawfulStateful H] (keeps : registry.KeepsValues) (calm : deed.KeepsValues) (host : H) :
    Stateful.values (registry.does deed host).host =
      (deed.edit (Stateful.values host)).apply (Stateful.values host) := by
  cases deed with
  | request attr ask =>
    simp only [Deed.edit, ← registry.judge_values]
    by_cases granted : (registry.machineOf attr).judge host ask.target = .ok true
    · rw [granted]
      have observers : ∀ observer ∈ (registry.machineOf attr).observers, ∀ transition,
          (observer transition).KeepsValues := keeps
      exact Machine.perform_values observers calm granted ask.now
    · have stays : (registry.does (.request attr ask) host).host = host := Machine.perform_declined granted ask.call
      rw [stays]
      rcases Machine.judge_declined granted with kept | ⟨refusal, refused⟩
      · rw [kept]
        rfl
      · rw [refused]
        rfl
  | set attr value => exact LawfulStateful.values_setValues _ _
  | commit => exact LawfulStateful.values_setValues _ _

theorem does_history [LawfulStateful H] (keeps : registry.KeepsValues) (calm : deed.KeepsValues) (host : H) :
    (Stateful.values (registry.does deed host).host).history.transitions =
      (Stateful.values host).history.transitions ++ (deed.edit (Stateful.values host)).records := by
  rw [does_values keeps calm, Edit.apply_history]

theorem does_alike [LawfulStateful H] (keeps : registry.KeepsValues) (calm : deed.KeepsValues)
    (concerned : deed.concerns name) {one other : H}
    (alike : Values.Alike name (Stateful.values one) (Stateful.values other)) :
    Values.Alike name (Stateful.values (registry.does deed one).host)
      (Stateful.values (registry.does deed other).host) := by
  rw [does_values keeps calm, does_values keeps calm, Deed.edit_congr concerned alike]
  exact Edit.apply_alike _ alike

theorem does_foreign [LawfulStateful H] (keeps : registry.KeepsValues) (calm : deed.KeepsValues)
    (foreign : ¬ deed.concerns name) (host : H) :
    Values.Alike name (Stateful.values (registry.does deed host).host) (Stateful.values host) := by
  rw [does_values keeps calm]
  cases named : deed.name? with
  | none => simp [Deed.concerns, named] at foreign
  | some own =>
    have different : name ≠ own := by
      intro same
      simp [Deed.concerns, named, same] at foreign
    exact (Deed.edit_under named _).spares different _

-- The induction carries two hosts: the one of the whole run, and the one of the run that was thinned out.
theorem after_alike [LawfulStateful H] (keeps : registry.KeepsValues) {deeds : List (Deed H)}
    (calm : ∀ deed ∈ deeds, deed.KeepsValues) {host twin : H}
    (alike : Values.Alike name (Stateful.values host) (Stateful.values twin)) :
    Values.Alike name (Stateful.values (registry.after host deeds))
      (Stateful.values (registry.after twin (deeds.filter (·.concerns name)))) := by
  induction deeds generalizing host twin with
  | nil => exact alike
  | cons deed rest ih =>
    have first := calm deed List.mem_cons_self
    have later := fun other member => calm other (List.mem_cons_of_mem _ member)
    by_cases concerned : deed.concerns name
    · rw [List.filter_cons_of_pos concerned]
      exact ih later (does_alike keeps first concerned alike)
    · rw [List.filter_cons_of_neg concerned]
      exact ih later ((does_foreign keeps first concerned host).trans alike)

theorem agrees_of_alike (registry : Registry H) (named : deed.name? = some name) {one other : H}
    (alike : Values.Alike name (Stateful.values one) (Stateful.values other)) : registry.Agrees deed one other := by
  have judgement : ∀ attr ask, deed = .request attr ask →
      (registry.machineOf attr).judge one ask.target = (registry.machineOf attr).judge other ask.target := by
    rintro attr ask rfl
    obtain rfl : attr.name = name := Option.some.inj named
    rw [judge_values, judge_values]
    exact Machine.judge_of_get alike.get ask.target
  have answer : (registry.does deed one).value = (registry.does deed other).value ↔
      registry.ending deed one = registry.ending deed other := by
    cases deed with
    | request attr ask => exact Machine.answer_iff (judgement attr ask rfl)
    | set attr value =>
      obtain rfl : attr.name = name := Option.some.inj named
      exact iff_of_true alike.get rfl
    | commit => cases named
  constructor
  case judgement => exact judgement
  case edit =>
    have concerned : deed.concerns name := by simp [Deed.concerns, named]
    exact Deed.edit_congr concerned alike
  case answer => exact answer
  case steady =>
    intro steady
    refine answer.mpr ?_
    cases deed with
    | request attr ask => exact Machine.ending_steady (judgement attr ask rfl) steady
    | set attr value => rfl
    | commit => rfl

-- Two deeds on different attributes may change places, but for their records.
structure Commutes (registry : Registry H) (host : H) (one other : Deed H) : Prop where
  first : registry.Agrees one host (registry.after host [other])
  second : registry.Agrees other (registry.after host [one]) host
  current : (Stateful.values (registry.after host [one, other])).current =
    (Stateful.values (registry.after host [other, one])).current
  committed : (Stateful.values (registry.after host [one, other])).committed =
    (Stateful.values (registry.after host [other, one])).committed
  history : ∃ mine theirs : List Transition, mine.length ≤ 1 ∧ theirs.length ≤ 1 ∧
    (∀ record ∈ mine, one.name? = some record.attributeName) ∧
    (∀ record ∈ theirs, other.name? = some record.attributeName) ∧
    (Stateful.values (registry.after host [one, other])).history.transitions =
      (Stateful.values host).history.transitions ++ mine ++ theirs ∧
    (Stateful.values (registry.after host [other, one])).history.transitions =
      (Stateful.values host).history.transitions ++ theirs ++ mine

-- No name keeps both of two deeds on different attributes, so both orders are thinned out to one run.
theorem swapped_alike [LawfulStateful H] (keeps : registry.KeepsValues) {one other : Deed H}
    (calmOne : one.KeepsValues) (calmOther : other.KeepsValues)
    (apart : ¬ (one.concerns name ∧ other.concerns name)) (host : H) :
    Values.Alike name (Stateful.values (registry.after host [one, other]))
      (Stateful.values (registry.after host [other, one])) := by
  have thinned : [one, other].filter (·.concerns name) = [other, one].filter (·.concerns name) := by
    by_cases own : one.concerns name
    · have foreign : ¬ other.concerns name := fun also => apart ⟨own, also⟩
      simp [List.filter_cons, foreign]
    · simp [List.filter_cons, own]
  have forth : ∀ deed ∈ [one, other], deed.KeepsValues := by simp [calmOne, calmOther]
  have back : ∀ deed ∈ [other, one], deed.KeepsValues := by simp [calmOne, calmOther]
  have start := Values.Alike.refl name (Stateful.values host)
  have left := after_alike keeps forth start
  rw [thinned] at left
  exact left.trans (after_alike keeps back start).symm

theorem commutes [LawfulStateful H] (keeps : registry.KeepsValues) {one other : Deed H}
    (calmOne : one.KeepsValues) (calmOther : other.KeepsValues) (oneName : one.name? = some mine)
    (otherName : other.name? = some theirs) (different : mine ≠ theirs) (host : H) :
    registry.Commutes host one other := by
  have foreignOne : ¬ one.concerns theirs := by simp [Deed.concerns, oneName, different]
  have foreignOther : ¬ other.concerns mine := by simp [Deed.concerns, otherName, different.symm]
  have everywhere : ∀ name, Values.Alike name (Stateful.values (registry.after host [one, other]))
      (Stateful.values (registry.after host [other, one])) := by
    intro name
    refine swapped_alike keeps calmOne calmOther ?_ host
    rintro ⟨own, also⟩
    simp only [Deed.concerns, oneName, otherName, Option.all_some, beq_iff_eq] at own also
    exact different (own.trans also.symm)
  have first : registry.Agrees one host (registry.after host [other]) :=
    registry.agrees_of_alike oneName (does_foreign keeps calmOther foreignOther host).symm
  have second : registry.Agrees other (registry.after host [one]) host :=
    registry.agrees_of_alike otherName (does_foreign keeps calmOne foreignOne host)
  constructor
  case first => exact first
  case second => exact second
  case current => exact Slots.eq_of_lookup fun name => (everywhere name).slot
  case committed => exact Slots.eq_of_lookup fun name => (everywhere name).committed
  case history =>
    obtain ⟨oneRecords, oneNames⟩ := (Deed.edit_under oneName (Stateful.values host)).records
    obtain ⟨otherRecords, otherNames⟩ := (Deed.edit_under otherName (Stateful.values host)).records
    refine ⟨_, _, oneRecords, otherRecords, ?_, ?_, ?_, ?_⟩
    · exact fun record member => oneName.trans (congrArg some (oneNames record member).symm)
    · exact fun record member => otherName.trans (congrArg some (otherNames record member).symm)
    · have later := does_history keeps calmOther (registry.after host [one])
      rwa [second.edit, show registry.after host [one] = (registry.does one host).host from rfl,
        does_history keeps calmOne] at later
    · have later := does_history keeps calmOne (registry.after host [other])
      rwa [← first.edit, show registry.after host [other] = (registry.does other host).host from rfl,
        does_history keeps calmOther] at later

-- A run beside the same run without the deeds on the other attributes: each deed on an attribute, after what
-- came before it, and what the attribute shows in the end.
structure Independent (registry : Registry H) (deeds : List (Deed H)) (host : H) : Prop where
  answers : ∀ name before deed later, deeds = before ++ deed :: later → deed.name? = some name →
    registry.Agrees deed (registry.after host before) (registry.after host (before.filter (·.concerns name)))
  shown : ∀ name, (Stateful.values (registry.after host deeds)).showing name =
    (Stateful.values (registry.after host (deeds.filter (·.concerns name)))).showing name
  orders : ∀ one ∈ deeds, ∀ other ∈ deeds, ∀ mine theirs, one.name? = some mine →
    other.name? = some theirs → mine ≠ theirs → registry.Commutes host one other

theorem after_independent [LawfulStateful H] {registry : Registry H} {deeds : List (Deed H)}
    (keeps : registry.KeepsValues) (calm : ∀ deed ∈ deeds, deed.KeepsValues) (host : H) :
    registry.Independent deeds host := by
  constructor
  case answers =>
    intro name before deed later split named
    have earlier : ∀ deed ∈ before, deed.KeepsValues := by
      intro other member
      exact calm other (by simp [split, member])
    exact registry.agrees_of_alike named (after_alike keeps earlier (.refl name (Stateful.values host)))
  case shown => exact fun name => (after_alike keeps calm (.refl name (Stateful.values host))).showing
  case orders =>
    intro one member other also mine theirs oneName otherName different
    exact commutes keeps (calm one member) (calm other also) oneName otherName different host

-- A copy goes its own way under names that the document uses as well. Whoever hears of a move keeps a log.
def copyStates : Forest := .leaf "draft" (.one "published") (.leaf "published" (.many ["draft"]) .nil)

def copy : Attribute := ⟨"copy", "draft", [], {}, copyStates.table⟩

def logger : Observer Script.Host := fun transition => Script.Host.note fun _ => transition.attributeName

def jam : Act Script.Host (Except String Unit) := do
  Script.Host.note fun _ => "jam"
  return .error "the copier is jammed"

def copyRoom : Registry Script.Host :=
  (((empty : Registry Script.Host).register .document).1.register copy).1.observe logger

def copyDay : List (Deed Script.Host) :=
  [.request .document ⟨default, "first", .change⟩,
    .request copy ⟨default, "published", .changeWith jam⟩,
    .commit,
    .request .document ⟨default, "second", .changeStrict⟩,
    .set copy none,
    .request copy ⟨default, "published", .changeStrictWith (fun _ => "refused") jam⟩]

theorem copyRoom_keeps : copyRoom.KeepsValues := by
  intro observer member transition host
  obtain rfl : observer = logger := List.mem_singleton.mp member
  rfl

theorem copyDay_independent :
    copyRoom.KeepsValues ∧ (∀ deed ∈ copyDay, deed.KeepsValues ∧ deed.Steady) ∧
      copyRoom.Independent copyDay ⟨copyRoom.newValues, #[]⟩ := by
  have calm : ∀ deed ∈ copyDay, deed.KeepsValues := by
    simp only [copyDay, List.forall_mem_cons]
    exact ⟨fun _ => rfl, fun _ => rfl, trivial, fun _ => rfl, trivial, fun _ => rfl, List.forall_mem_nil _⟩
  have steady : ∀ deed ∈ copyDay, deed.Steady := by
    simp only [copyDay, List.forall_mem_cons]
    exact ⟨fun _ _ => rfl, fun _ _ => rfl, trivial, fun _ _ => rfl, trivial, fun _ _ => rfl, List.forall_mem_nil _⟩
  exact ⟨copyRoom_keeps, fun deed member => ⟨calm deed member, steady deed member⟩,
    after_independent copyRoom_keeps calm _⟩

-- It leaves the values alone, but it will not have the document read once anything stands in the log.
def wary : Act Script.Host (Except String Unit) := do
  let host ← Act.look
  match host.log.toList with
  | [] => return .ok ()
  | _ :: _ => return .error "somebody was here"

def copying : Deed Script.Host := .request copy ⟨default, "published", .change⟩

def reading : Deed Script.Host := .request .document ⟨default, "first", .changeWith wary⟩

def quiet : Script.Host := ⟨copyRoom.newValues, #[]⟩

def readAfter (deeds : List (Deed Script.Host)) : Except String Bool :=
  (copyRoom.does reading (copyRoom.after quiet deeds)).value

-- The reading fails after the copying and goes well without it or before it, and the log shows who came first.
theorem wary_answers_otherwise :
    copyRoom.KeepsValues ∧ (∀ deed ∈ [copying, reading], deed.KeepsValues) ∧
      copying.name? = some "copy" ∧ reading.name? = some "state" ∧
      readAfter [copying] = .error "somebody was here" ∧
      readAfter ([copying].filter (·.concerns "state")) = .ok true ∧
      (copyRoom.after quiet [copying, reading]).log = #["copy"] ∧
      (copyRoom.after quiet [reading, copying]).log = #["state", "copy"] := by
  have calm : (SideEffect.ends wary).KeepsValues := by
    intro host
    simp only [wary, SideEffect.ends_run, Act.bind_run, Act.look_run]
    cases host.log.toList <;> rfl
  have each : ∀ deed ∈ [copying, reading], deed.KeepsValues := by
    simp only [List.forall_mem_cons]
    exact ⟨fun _ => rfl, calm, List.forall_mem_nil _⟩
  have fails : readAfter [copying] = .error "somebody was here" := by decide +kernel
  have goes : readAfter ([copying].filter (·.concerns "state")) = .ok true := by decide +kernel
  exact ⟨copyRoom_keeps, each, rfl, rfl, fails, goes, by decide +kernel, by decide +kernel⟩

end Registry
end StateAttributes

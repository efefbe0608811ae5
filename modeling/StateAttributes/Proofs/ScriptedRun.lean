import StateAttributes.Script
import StateAttributes.Proofs.Conduct

namespace StateAttributes.Script

instance : LawfulStateful Host := ⟨fun _ _ => rfl⟩

def Action.overwrites : Action → Bool
  | .set _ _ => true
  | _ => false

def Calm (actions : List Action) : Prop := ∀ action ∈ actions, action.overwrites = false

-- No action that is left, now or later, overwrites a slot.
def Pending.Calm : Pending → Prop
  | .actions rest => Script.Calm rest
  | .telling _ _ rest => ∀ observer ∈ rest, Script.Calm observer.actions
  | .moved => True

def RegistryScript.Calm (script : RegistryScript) : Prop :=
  ∀ observer ∈ script.observers, Script.Calm observer.actions

namespace RegistryScript

variable {script : RegistryScript} {now : Instant}

theorem note_orderly (script : RegistryScript) (now : Instant) (line : Values → String) :
    (script.registry now).Orderly (Host.note line).code :=
  Registry.orderly_aside fun _ => rfl

theorem request_declined {attributeName : String}
    (declined : ∀ attr, script.attributes.find? (·.name == attributeName) = some attr →
      (⟨attr, []⟩ : Machine Host).judge host target ≠ .ok true) :
    ((script.request now attributeName target).code host).values = host.values := by
  simp only [request]
  cases found : script.attributes.find? (·.name == attributeName) with
  | none => rfl
  | some attr =>
    simp only [Act.code_bind, Act.look_value, Act.code_look]
    cases answer : (⟨attr, []⟩ : Machine Host).judge host target with
    | error refusal => rfl
    | ok moves =>
      cases moves with
      | false => rfl
      | true => exact absurd answer (declined attr found)

-- What follows from a request is left on the agenda, so the request itself tells nobody.
theorem request_orderly (script : RegistryScript) (now : Instant) (attributeName : String) (target : StateName) :
    (script.registry now).Orderly (script.request now attributeName target).code := by
  intro host
  by_cases granted : ∃ attr, script.attributes.find? (·.name == attributeName) = some attr ∧
      (⟨attr, []⟩ : Machine Host).judge host target = .ok true
  · obtain ⟨attr, found, granted⟩ := granted
    have alone : (⟨attr, []⟩ : Machine Host).Request now target
        ((⟨attr, []⟩ : Machine Host).change now target).code _ := .change
    have parts : (script.request now attributeName target).code host =
        inTurn [((⟨attr, []⟩ : Machine Host).change now target).code] host := by
      rw [inTurn_cons, alone.granted granted]
      simp [request, found, granted, Machine.told]
    have member : attr ∈ (script.registry now).attributes := List.mem_of_find?_eq_some found
    obtain ⟨seen, run⟩ := Registry.orderly_request member alone (by simp [Machine.told]) host
    exact ⟨_, .split parts (run.append .done)⟩
  · refine ⟨_, .aside (request_declined ?_) .done⟩
    intro attr found accepted
    exact granted ⟨attr, found, accepted⟩

theorem act_orderly {action : Action} (calm : action.overwrites = false) :
    (script.registry now).Orderly (script.act now action).code := by
  cases action with
  | log text => exact Registry.orderly_bind (note_orderly script now _) fun _ => Registry.orderly_aside fun _ => rfl
  | see name => exact Registry.orderly_bind (note_orderly script now _) fun _ => Registry.orderly_aside fun _ => rfl
  | set name value => cases calm
  | commit => exact fun host => ⟨_, .commit rfl .done⟩
  | change name target =>
    exact Registry.orderly_bind (request_orderly script now name target) fun _ => Registry.orderly_aside fun _ => rfl
  | fail text => exact Registry.orderly_aside fun _ => rfl

theorem advance_orderly {piece : Pending} (calm : piece.Calm) :
    (script.registry now).Orderly (script.advance now piece).code := by
  cases piece with
  | actions rest =>
    cases rest with
    | nil => exact Registry.orderly_aside fun _ => rfl
    | cons action rest =>
      refine Registry.orderly_bind (act_orderly (calm action List.mem_cons_self)) ?_
      intro answer
      cases answer <;> exact Registry.orderly_aside fun _ => rfl
  | telling transition position rest =>
    cases rest with
    | nil => exact Registry.orderly_aside fun _ => rfl
    | cons observer rest =>
      refine Registry.orderly_aside fun host => ?_
      simp only [advance, Act.code_bind, Act.code_emit]
      split <;> rfl
  | moved => exact Registry.orderly_aside fun _ => rfl

theorem request_calm (calm : script.Calm) (now : Instant) (attributeName : String) (target : StateName)
    (host : Host) : ∀ piece ∈ (script.request now attributeName target host).value, piece.Calm := by
  simp only [request]
  cases script.attributes.find? (·.name == attributeName) with
  | none => exact List.forall_mem_nil _
  | some attr =>
    simp only [bind, Act.bind, Act.look]
    cases (⟨attr, []⟩ : Machine Host).judge host target with
    | error refusal => exact List.forall_mem_nil _
    | ok moves =>
      cases moves with
      | false => exact List.forall_mem_nil _
      | true => exact List.forall_mem_cons.mpr ⟨calm, List.forall_mem_singleton.mpr trivial⟩

theorem act_calm (calm : script.Calm) {action : Action}
    (left : (script.act now action host).value = .ok more) : ∀ piece ∈ more, piece.Calm := by
  cases action with
  | change name target =>
    cases left
    exact request_calm calm now name target host
  | fail text => cases left
  | _ =>
    cases left
    exact List.forall_mem_nil _

theorem advance_calm (calm : script.Calm) {piece : Pending} (own : piece.Calm)
    (left : (script.advance now piece host).value = .ok more) : ∀ other ∈ more, other.Calm := by
  cases piece with
  | actions rest =>
    cases rest with
    | nil =>
      cases left
      exact List.forall_mem_nil _
    | cons action rest =>
      simp only [advance, bind, Act.bind] at left
      cases answer : (script.act now action host).value with
      | error text =>
        rw [answer] at left
        cases left
      | ok before =>
        rw [answer] at left
        cases left
        refine List.forall_mem_append.mpr ⟨act_calm calm answer, ?_⟩
        refine List.forall_mem_singleton.mpr ?_
        exact fun other member => own other (List.mem_cons_of_mem _ member)
  | telling transition position rest =>
    cases rest with
    | nil =>
      cases left
      exact List.forall_mem_nil _
    | cons observer rest =>
      have others : (Pending.telling transition (position + 1) rest).Calm :=
        fun other member => own other (List.mem_cons_of_mem _ member)
      simp only [advance, bind, Act.bind] at left
      split at left
      · cases left
        exact List.forall_mem_cons.mpr ⟨own observer List.mem_cons_self, List.forall_mem_singleton.mpr others⟩
      · cases left
        exact List.forall_mem_singleton.mpr others
  | moved =>
    cases left
    exact List.forall_mem_nil _

theorem workOff_orderly (calm : script.Calm) (fuel : Nat) {agenda : List Pending} (events : Array Event)
    (quiet : ∀ piece ∈ agenda, piece.Calm) :
    (script.registry now).Orderly fun host => (script.workOff now fuel agenda events host).host := by
  induction fuel generalizing agenda events with
  | zero => exact Registry.orderly_aside fun host => by rw [workOff]
  | succ fuel ih =>
    cases agenda with
    | nil => exact Registry.orderly_aside fun host => by simp [workOff]
    | cons piece rest =>
      intro host
      have own := quiet piece List.mem_cons_self
      have others : ∀ other ∈ rest, other.Calm := fun other member => quiet other (List.mem_cons_of_mem _ member)
      have step : (script.registry now).Orderly (script.advance now piece).code := advance_orderly own
      obtain ⟨seen, first⟩ := step host
      cases answer : (script.advance now piece host).value with
      | ok more =>
        have left : ∀ other ∈ more ++ rest, other.Calm :=
          List.forall_mem_append.mpr ⟨advance_calm calm own answer, others⟩
        obtain ⟨after, later⟩ := ih (events ++ (script.advance now piece host).events) left
          ((script.advance now piece).code host)
        refine ⟨seen ++ after, first.andThen ?_ later⟩
        simp only [workOff, answer]
        rfl
      | error text =>
        obtain ⟨after, later⟩ := ih (events ++ (script.advance now piece host).events) others
          ((script.advance now piece).code host)
        refine ⟨seen ++ after, first.andThen ?_ later⟩
        simp only [workOff, answer]
        -- The failure of the last list ends the run at once, which changes the host no more than an empty
        -- agenda would.
        split
        · rename_i last
          rw [List.isEmpty_iff.mp last]
          cases fuel <;> rfl
        · rfl

theorem perform_orderly (calm : script.Calm) {actions : List Action} (quiet : Script.Calm actions) :
    (script.registry now).Orderly (script.perform now actions).code :=
  workOff_orderly calm _ _ (List.forall_mem_singleton.mpr quiet)

theorem observe_orderly (calm : script.Calm) (now : Instant) {observer : ObserverScript}
    (member : observer ∈ script.observers) (transition : Transition) :
    (script.registry now).Orderly (script.observe now observer transition).code := by
  unfold observe
  split
  · refine Registry.orderly_bind (note_orderly script now _) fun _ => ?_
    exact Registry.orderly_bind (perform_orderly calm (calm observer member)) fun _ =>
      Registry.orderly_aside fun _ => rfl
  · exact Registry.orderly_aside fun _ => rfl

theorem change_orderly (calm : script.Calm) (now : Instant) {attr : Attribute} (member : attr ∈ script.attributes)
    (target : StateName) :
    (script.registry now).Orderly (((script.registry now).machineOf attr).change now target).code := by
  refine Registry.orderly_request member .change ?_
  intro transition moved code told
  obtain ⟨observer, listed, rfl⟩ := List.mem_map.mp told
  obtain ⟨scripted, known, rfl⟩ := List.mem_map.mp listed
  exact observe_orderly calm now known transition

-- Whatever a calm script does to a new host leaves it in order.
theorem perform_inOrder (calm : script.Calm) {actions : List Action} (quiet : Script.Calm actions)
    (built : (script.registry now).Built) (fresh : host.values = (script.registry now).newValues) :
    (script.registry now).InOrder ((script.perform now actions).code host) := by
  obtain ⟨seen, conduct⟩ := perform_orderly calm quiet host
  exact conduct.inOrder built.sound fresh _ conduct.last

end RegistryScript
end StateAttributes.Script

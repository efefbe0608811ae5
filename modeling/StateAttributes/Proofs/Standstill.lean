import StateAttributes.Proofs.Call
import StateAttributes.Proofs.WaysOut

namespace StateAttributes

variable {states : Forest} {attr : Attribute} {value : Option StateName}

namespace Forest

end Forest

namespace Attribute

inductive Stuck (attr : Attribute) (states : Forest) : Option StateName → Prop where
  | missing : Stuck attr states none
  | undeclared (unknown : source ∉ states.names) : Stuck attr states (some source)
  | group (declared : (source, .group children) ∈ states.declared) : Stuck attr states (some source)
  | leaf (declared : source ∈ states.leafNames) (found : attr.state? source = some state)
      (out : state.transitions = .ok targets) (own : ∀ target ∈ targets, target = source) :
      Stuck attr states (some source)

theorem Stuck.leads (compiled : attr.CompiledFrom states) (stuck : attr.Stuck states (some source))
    (leads : attr.Leads source target) : target = source := by
  obtain ⟨state, names, found, out, listed⟩ := leads
  cases stuck with
  | undeclared unknown =>
    rw [compiled.state_undeclared unknown] at found
    cases found
  | group declared =>
    obtain ⟨group, same, refused⟩ := compiled.transitions_group declared
    rw [found] at same
    cases same
    rw [out] at refused
    cases refused
  | leaf _ same only own =>
    rw [found] at same
    cases same
    rw [out] at only
    cases only
    exact own target listed

end Attribute

namespace Machine

variable {H : Type} [Stateful H] {machine : Machine H} {host : H}

theorem judge_stuck (compiled : machine.subject.CompiledFrom states)
    (stuck : machine.subject.Stuck states (machine.current host)) (target : StateName) :
    machine.judge host target ≠ .ok true := by
  intro granted
  obtain ⟨source, held, moves, leads⟩ := judge_leads granted
  rw [held] at stuck
  exact moves (stuck.leads compiled leads).symm

end Machine

section

variable {H : Type} [Stateful H]

-- Between two hosts the attribute has kept its value, and no record was added for it.
structure Attribute.Keeps (attr : Attribute) (before after : H) : Prop where
  value : (Stateful.values after).get attr.name = (Stateful.values before).get attr.name
  records : (Stateful.values after).history.forAttribute attr.name =
    (Stateful.values before).history.forAttribute attr.name

-- A run of a piece of code, with the hosts that it comes to. Only granted requests on the attribute may store a
-- value in its slot or record a move of it. The observers and the side effect of a request are such code again;
-- other attributes, and the host beside its values, are free.
inductive Unforced (attr : Attribute) : {α : Type} → Act H α → H → List H → Prop where
  | aside {act : Act H α} (keeps : attr.Keeps host (act host).host) : Unforced attr act host [(act host).host]
  | andThen {act : Act H β} {first : Act H α} {next : α → Act H β} (parts : act host = (first >>= next) host)
      (before : Unforced attr first host seen)
      (behind : Unforced attr (next (first host).value) (first host).host more) :
      Unforced attr act host (seen ++ more)
  | declined {machine : Machine H} {call : Call H α} (declined : machine.judge host target ≠ .ok true) :
      Unforced attr (machine.perform now target call) host []
  | failed {machine : Machine H} {call : Call H α}
      (subject : machine.subject = attr ∨ machine.subject.name ≠ attr.name)
      (granted : machine.judge host target = .ok true)
      (fails : (call.effect (machine.stored now target host)).value = some ending)
      (effect : Unforced attr call.effect (machine.stored now target host) seen) :
      Unforced attr (machine.perform now target call) host (machine.stored now target host :: seen)
  | carried {machine : Machine H} {call : Call H α}
      (subject : machine.subject = attr ∨ machine.subject.name ≠ attr.name)
      (granted : machine.judge host target = .ok true)
      (goes : (call.effect (machine.stored now target host)).value = none)
      (effect : Unforced attr call.effect (machine.stored now target host) seen)
      (told : Unforced attr (machine.notify (machine.step now target host))
        (call.effect (machine.stored now target host)).host more) :
      Unforced attr (machine.perform now target call) host (machine.stored now target host :: (seen ++ more))

variable {before middle after host : H} {seen : List H}

theorem Attribute.Keeps.refl (attr : Attribute) (host : H) : attr.Keeps host host := ⟨rfl, rfl⟩

theorem Attribute.Keeps.trans (first : attr.Keeps before middle) (second : attr.Keeps middle after) :
    attr.Keeps before after :=
  ⟨second.value.trans first.value, second.records.trans first.records⟩

theorem Attribute.Keeps.stuck (keeps : attr.Keeps before after)
    (stuck : attr.Stuck states ((Stateful.values before).get attr.name)) :
    attr.Stuck states ((Stateful.values after).get attr.name) := by
  rwa [keeps.value]

theorem Attribute.Keeps.all (first : attr.Keeps before middle) (later : ∀ mid ∈ seen, attr.Keeps middle mid) :
    ∀ mid ∈ seen, attr.Keeps before mid :=
  fun mid member => first.trans (later mid member)

theorem stored_keeps [LawfulStateful H] {machine : Machine H} (foreign : machine.subject.name ≠ attr.name)
    (now : Instant) (target : StateName) (host : H) : attr.Keeps host (machine.stored now target host) := by
  constructor
  case value =>
    rw [Machine.stored, LawfulStateful.values_setValues]
    exact Slots.get_insert_other _ _ foreign.symm
  case records =>
    rw [Machine.stored, LawfulStateful.values_setValues]
    exact History.forAttribute_other foreign

-- A granted request moves its own attribute only, and never one that is stuck.
theorem granted_keeps [LawfulStateful H] {machine : Machine H} (compiled : attr.CompiledFrom states)
    (subject : machine.subject = attr ∨ machine.subject.name ≠ attr.name)
    (granted : machine.judge host target = .ok true)
    (stuck : attr.Stuck states ((Stateful.values host).get attr.name)) (now : Instant) :
    attr.Keeps host (machine.stored now target host) := by
  rcases subject with rfl | foreign
  · exact absurd granted (Machine.judge_stuck compiled stuck target)
  · exact stored_keeps foreign now target host

theorem Unforced.keeps [LawfulStateful H] {α : Type} {act : Act H α} (compiled : attr.CompiledFrom states)
    (run : Unforced attr act host seen) (stuck : attr.Stuck states ((Stateful.values host).get attr.name)) :
    ∀ mid ∈ (act host).host :: seen, attr.Keeps host mid := by
  induction run with
  | aside keeps => simpa using keeps
  | andThen parts _ _ firstIh nextIh =>
    obtain ⟨middle, first⟩ := List.forall_mem_cons.mp (firstIh stuck)
    obtain ⟨last, next⟩ := List.forall_mem_cons.mp (middle.all (nextIh (middle.stuck stuck)))
    rw [parts]
    exact List.forall_mem_cons.mpr ⟨last, List.forall_mem_append.mpr ⟨first, next⟩⟩
  | @declined _ host _ _ _ _ declined =>
    rw [Machine.perform_declined declined]
    simpa using Attribute.Keeps.refl attr host
  | @failed _ _ _ now _ _ _ _ subject granted fails _ effectIh =>
    have stored := granted_keeps compiled subject granted stuck now
    obtain ⟨last, inner⟩ := List.forall_mem_cons.mp (stored.all (effectIh (stored.stuck stuck)))
    rw [Machine.perform_failed granted _ fails]
    exact List.forall_mem_cons.mpr ⟨last, List.forall_mem_cons.mpr ⟨stored, inner⟩⟩
  | @carried _ _ _ now _ _ _ _ subject granted goes _ _ effectIh toldIh =>
    have stored := granted_keeps compiled subject granted stuck now
    obtain ⟨middle, inner⟩ := List.forall_mem_cons.mp (stored.all (effectIh (stored.stuck stuck)))
    obtain ⟨last, told⟩ := List.forall_mem_cons.mp (middle.all (toldIh (middle.stuck stuck)))
    rw [Machine.perform_carried granted _ goes]
    refine List.forall_mem_cons.mpr ⟨last, List.forall_mem_cons.mpr ⟨stored, ?_⟩⟩
    exact List.forall_mem_append.mpr ⟨inner, told⟩

namespace Attribute

end Attribute

namespace Machine

variable {machine : Machine H}

end Machine
end

namespace Attribute

variable {called : String} {initial : StateName} {events : List String} {options : Options}

end Attribute
end StateAttributes

import StateAttributes.Proofs.Assembly
import StateAttributes.Proofs.NetChange
import StateAttributes.Proofs.StoredText

namespace StateAttributes

-- A name that passes and is not listed yet is put behind the others.
theorem foldl_fresh (passes : String → Bool) {more : List String} (distinct : more.Nodup) (listed : List String) :
    more.foldl (fun names name => if passes name && !names.contains name then names ++ [name] else names) listed =
      listed ++ more.filter fun name => passes name && !listed.contains name := by
  induction more generalizing listed with
  | nil => simp
  | cons name rest ih =>
    obtain ⟨absent, others⟩ := List.nodup_cons.mp distinct
    rw [List.foldl_cons, ih others, List.filter_cons]
    split
    · rw [List.append_assoc, List.singleton_append]
      congr 2
      refine List.filter_congr fun other member => ?_
      have different : other ≠ name := fun same => absent (same ▸ member)
      simp [different]
    · rfl

namespace Slots

theorem keys_ascending (slots : Slots) : slots.keys.Pairwise (· < ·) := List.pairwise_map.mpr slots.ascending

theorem get_absent {slots : Slots} (absent : key ∉ slots.keys) : slots.get key = none := by
  have unset : slots.lookup key = none := not_not.mp (mt mem_keys.mpr absent)
  rw [get, unset]
  rfl

theorem mem_keys_insert {slots : Slots} {value : Option StateName} :
    other ∈ (slots.insert key value).keys ↔ other = key ∨ other ∈ slots.keys := by
  rw [mem_keys, mem_keys]
  by_cases own : other = key
  · simp [own, lookup_insert_self]
  · simp [own, lookup_insert_other]

end Slots

namespace Values

variable {values : Values} {name : String}

def isChanged (values : Values) (name : String) : Bool := (values.changes? name).isSome

-- The changed names that have a slot, and those that had one at the last commit only.
def changedHeld (values : Values) : List String := values.current.keys.filter values.isChanged

def changedGone (values : Values) : List String :=
  values.committed.keys.filter fun name => values.isChanged name && !values.current.keys.contains name

theorem isChanged_iff : values.isChanged name ↔ values.changes? name ≠ none := Option.isSome_iff_ne_none

-- A name without a slot holds nothing, so one that has no slot now and had none then has not changed.
theorem changed_known (changed : values.changes? name ≠ none) :
    name ∈ values.current.keys ∨ name ∈ values.committed.keys := by
  by_contra unknown
  obtain ⟨unheld, unknown⟩ := not_or.mp unknown
  refine changed (if_pos ?_)
  rw [get, Slots.get_absent unheld, Slots.get_absent unknown]

theorem mem_changedHeld : name ∈ values.changedHeld ↔ values.changes? name ≠ none ∧ name ∈ values.current.keys := by
  rw [changedHeld, List.mem_filter, isChanged_iff, and_comm]

theorem mem_changedGone :
    name ∈ values.changedGone ↔ values.changes? name ≠ none ∧ name ∉ values.current.keys := by
  rw [changedGone, List.mem_filter, Bool.and_eq_true, isChanged_iff, Bool.not_eq_true', List.contains_eq_mem,
    decide_eq_false_iff_not]
  constructor
  · rintro ⟨-, changed, unheld⟩
    exact ⟨changed, unheld⟩
  · rintro ⟨changed, unheld⟩
    exact ⟨(changed_known changed).resolve_left unheld, changed, unheld⟩

theorem changedHeld_ascending (values : Values) : values.changedHeld.Pairwise (· < ·) :=
  values.current.keys_ascending.filter _

theorem changedGone_ascending (values : Values) : values.changedGone.Pairwise (· < ·) :=
  values.committed.keys_ascending.filter _

theorem changedAttributes_parts (values : Values) :
    values.changedAttributes = values.changedHeld ++ values.changedGone := by
  have listed : ∀ name ∈ values.committed.keys, (values.isChanged name && !values.changedHeld.contains name) =
      (values.isChanged name && !values.current.keys.contains name) := by
    intro name _
    cases changed : values.isChanged name with
    | false => rfl
    | true => simp [mem_changedHeld, isChanged_iff.mp changed]
  have held := foldl_fresh values.isChanged values.current.keys_nodup []
  have gone := foldl_fresh values.isChanged values.committed.keys_nodup values.changedHeld
  simp only [List.contains_nil, Bool.not_false, Bool.and_true, List.nil_append] at held
  rw [List.filter_congr listed] at gone
  rw [changedAttributes, List.foldl_append]
  exact (congrArg (List.foldl _ · _) held).trans gone

theorem mem_changedAttributes : name ∈ values.changedAttributes ↔ values.changes? name ≠ none := by
  rw [changedAttributes_parts, List.mem_append, mem_changedHeld, mem_changedGone, ← and_or_left,
    and_iff_left (Classical.em _)]

theorem changedAttributes_once (values : Values) : values.changedAttributes.Nodup := by
  rw [changedAttributes_parts, List.nodup_append]
  refine ⟨values.changedHeld_ascending.imp String.ne_of_lt, values.changedGone_ascending.imp String.ne_of_lt, ?_⟩
  rintro held member gone other rfl
  exact (mem_changedGone.mp other).2 (mem_changedHeld.mp member).2

-- The two parts ascend by themselves, so only where they meet can the order break.
theorem changedAttributes_ascending : values.changedAttributes.Pairwise (· < ·) ↔
    ∀ held ∈ values.changedAttributes, held ∈ values.current.keys →
      ∀ gone ∈ values.changedAttributes, gone ∉ values.current.keys → held < gone := by
  rw [changedAttributes_parts, List.pairwise_append, and_iff_right values.changedHeld_ascending,
    and_iff_right values.changedGone_ascending]
  constructor
  · intro before held member slot gone other lost
    refine before held ?_ gone ?_
    · exact (List.mem_append.mp member).resolve_right fun elsewhere => (mem_changedGone.mp elsewhere).2 slot
    · exact (List.mem_append.mp other).resolve_left fun elsewhere => lost (mem_changedHeld.mp elsewhere).2
  · intro before held member gone other
    exact before held (List.mem_append_left _ member) (mem_changedHeld.mp member).2 gone
      (List.mem_append_right _ other) (mem_changedGone.mp other).2

-- What the list of changed names tells. It ascends exactly if no name that has lost its slot goes before one
-- that has a slot.
structure TellsOf (values : Values) (names : List String) : Prop where
  exact : ∀ name, name ∈ names ↔ values.changes? name ≠ none
  once : names.Nodup
  parts : ∃ held gone, names = held ++ gone ∧ held.Pairwise (· < ·) ∧ gone.Pairwise (· < ·) ∧
    (∀ name ∈ held, name ∈ values.current.keys) ∧ ∀ name ∈ gone, name ∉ values.current.keys
  ascends : names.Pairwise (· < ·) ↔
    ∀ held ∈ names, held ∈ values.current.keys → ∀ gone ∈ names, gone ∉ values.current.keys → held < gone

theorem changedAttributes_tell (values : Values) : values.TellsOf values.changedAttributes := by
  constructor
  case exact => exact fun name => mem_changedAttributes
  case once => exact values.changedAttributes_once
  case parts =>
    exact ⟨_, _, values.changedAttributes_parts, values.changedHeld_ascending, values.changedGone_ascending,
      fun _ member => (mem_changedHeld.mp member).2, fun _ member => (mem_changedGone.mp member).2⟩
  case ascends => exact changedAttributes_ascending

-- A document that has a state, and that was filed at the last commit under a slot it no longer has.
def unfiled : Values := ⟨.ofList [("state", some "draft")], .ofList [("drawer", some "first")], .empty⟩

theorem unfiled_descends :
    Values.ofText unfiled.toText = .ok unfiled ∧ unfiled.changedAttributes = ["state", "drawer"] ∧
      ¬ unfiled.changedAttributes.Pairwise (· < ·) := by
  have told : unfiled.changedAttributes = ["state", "drawer"] := by decide +kernel
  refine ⟨ofText_toText unfiled, told, ?_⟩
  rw [told]
  decide

-- A slot of the last commit is there to stay.
def KeepsSlots (values : Values) : Prop := ∀ name ∈ values.committed.keys, name ∈ values.current.keys

theorem KeepsSlots.set (keeps : values.KeepsSlots) (own : String) (value : Option StateName) :
    (values.set own value).KeepsSlots :=
  fun name member => Slots.mem_keys_insert.mpr (.inr (keeps name member))

theorem KeepsSlots.commit (values : Values) : values.commit.KeepsSlots := fun _ member => member

theorem KeepsSlots.ascending (keeps : values.KeepsSlots) : values.changedAttributes.Pairwise (· < ·) := by
  rw [changedAttributes_ascending]
  intro held _ _ gone member lost
  rcases changed_known (mem_changedAttributes.mp member) with slot | kept
  · exact absurd slot lost
  · exact absurd (keeps gone kept) lost

end Values

section

variable {H : Type} [Stateful H] {host : H} {stops : List (Stop H)}

theorem Values.KeepsSlots.stored [LawfulStateful H] {machine : Machine H} (keeps : (Stateful.values host).KeepsSlots) :
    (Stateful.values (machine.stored now target host)).KeepsSlots := by
  rw [Machine.stored, LawfulStateful.values_setValues]
  exact keeps.set machine.subject.name (some target)

-- Along a run the slots only grow in number, and a commit takes over those that are there.
theorem Handles.keepsSlots [LawfulStateful H] {α : Type} {act : Act H α} (handles : Handles act host stops)
    (keeps : (Stateful.values host).KeepsSlots) :
    (∀ stop ∈ stops, (Stateful.values stop.host).KeepsSlots) ∧ (Stateful.values (act host).host).KeepsSlots := by
  induction handles with
  | aside same =>
    rw [List.forall_mem_singleton, and_self, same]
    exact keeps
  | write writes =>
    rw [List.forall_mem_singleton, and_self, writes]
    exact keeps.set _ _
  | commit commits =>
    rw [List.forall_mem_singleton, and_self, commits]
    exact .commit _
  | andThen parts _ _ firstIh nextIh =>
    obtain ⟨first, middle⟩ := firstIh keeps
    obtain ⟨later, last⟩ := nextIh middle
    rw [parts]
    exact ⟨List.forall_mem_append.mpr ⟨first, later⟩, last⟩
  | declined declined =>
    rw [Machine.perform_declined declined]
    exact ⟨List.forall_mem_nil _, keeps⟩
  | failed granted fails _ effectIh =>
    obtain ⟨inner, last⟩ := effectIh keeps.stored
    rw [Machine.perform_failed granted _ fails]
    exact ⟨List.forall_mem_cons.mpr ⟨keeps.stored, inner⟩, last⟩
  | carried granted goes _ _ effectIh toldIh =>
    obtain ⟨inner, middle⟩ := effectIh keeps.stored
    obtain ⟨told, last⟩ := toldIh middle
    rw [Machine.perform_carried granted _ goes]
    exact ⟨List.forall_mem_cons.mpr ⟨keeps.stored, List.forall_mem_append.mpr ⟨inner, told⟩⟩, last⟩

-- From a new host on, no run comes to a host whose changed names are out of order.
theorem Handles.ascending [LawfulStateful H] {α : Type} {act : Act H α}
    (fresh : Stateful.values host = .empty ∨ ∃ attributes, Stateful.values host = .initial attributes)
    (handles : Handles act host stops) :
    (∀ stop ∈ stops, (Stateful.values stop.host).changedAttributes.Pairwise (· < ·)) ∧
      (Stateful.values (act host).host).changedAttributes.Pairwise (· < ·) := by
  have keeps : (Stateful.values host).KeepsSlots := by
    rcases fresh with empty | ⟨attributes, initial⟩
    · rw [empty]
      exact List.forall_mem_nil _
    · rw [initial]
      exact List.forall_mem_nil _
  obtain ⟨midway, last⟩ := handles.keepsSlots keeps
  exact ⟨fun stop member => (midway stop member).ascending, last.ascending⟩

end
end StateAttributes

import StateAttributes.Registry
import StateAttributes.Proofs.Acceptance

namespace StateAttributes

namespace Slots

variable {entries : List (String × Option StateName)} {key other : String} {value : Option StateName}

theorem lookup_insertEntry_self : (insertEntry key value entries).lookup key = some value := by
  induction entries with
  | nil => simp [insertEntry]
  | cons first rest ih =>
    unfold insertEntry
    split
    · simp
    · split
      · simp
      · rename_i different
        rw [List.lookup_cons, beq_false_of_ne different]
        exact ih

theorem lookup_insertEntry_other (different : other ≠ key) :
    (insertEntry key value entries).lookup other = entries.lookup other := by
  have skip : (other == key) = false := beq_false_of_ne different
  induction entries with
  | nil => simp only [insertEntry, List.lookup_cons, skip]
  | cons first rest ih =>
    obtain ⟨own, held⟩ := first
    unfold insertEntry
    split
    · simp only [List.lookup_cons, skip]
    · split
      · rename_i same
        subst same
        simp only [List.lookup_cons, skip]
      · simp only [List.lookup_cons, ih]

@[simp] theorem get_insert_self (slots : Slots) (key : String) (value : Option StateName) :
    (slots.insert key value).get key = value := by
  simp [get, lookup, insert, lookup_insertEntry_self]

theorem get_insert_other (slots : Slots) (value : Option StateName) (different : other ≠ key) :
    (slots.insert key value).get other = slots.get other := by
  simp [get, lookup, insert, lookup_insertEntry_other different]

theorem get_inserts_other (entries : List (String × Option StateName)) (slots : Slots)
    (absent : key ∉ entries.map (·.1)) :
    (entries.foldl (fun slots entry => slots.insert entry.1 entry.2) slots).get key = slots.get key := by
  induction entries generalizing slots with
  | nil => rfl
  | cons first rest ih =>
    simp only [List.map_cons, List.mem_cons, not_or] at absent
    rw [List.foldl_cons, ih _ absent.2, get_insert_other _ _ absent.1]

theorem get_inserts (slots : Slots) (unique : (entries.map (·.1)).Nodup) (member : (key, value) ∈ entries) :
    (entries.foldl (fun slots entry => slots.insert entry.1 entry.2) slots).get key = value := by
  induction entries generalizing slots with
  | nil => cases member
  | cons first rest ih =>
    rw [List.map_cons, List.nodup_cons] at unique
    rcases List.mem_cons.mp member with rfl | later
    · rw [List.foldl_cons, get_inserts_other _ _ unique.1, get_insert_self]
    · exact ih _ unique.2 later

theorem get_ofList (unique : (entries.map (·.1)).Nodup) (member : (key, value) ∈ entries) :
    (ofList entries).get key = value :=
  get_inserts empty unique member

end Slots

namespace Registry

-- Registries are put together step by step, and only compiled attributes can be stored. A parent's host
-- type may be another one.
inductive Built : {H : Type} → Registry H → Prop where
  | empty : Built (empty : Registry H)
  | inherit {P H : Type} {parent : Registry P} (built : Built parent) : Built (parent.inherit : Registry H)
  | register {H : Type} {registry : Registry H} (built : Built registry) (draft : Draft)
      (compiled : draft.compile = .ok attr) : Built (registry.register attr).1
  | observe {H : Type} {registry : Registry H} (built : Built registry) (observer : Observer H) :
      Built (registry.observe observer)
  | onHook {H : Type} {registry : Registry H} (built : Built registry) (hook : LifecycleHook)
      (callback : Callback H) : Built (registry.onHook hook callback)

variable {H : Type}

structure Sound (registry : Registry H) : Prop where
  unique : registry.names.Nodup
  compiled : ∀ attr ∈ registry.attributes, ∃ states, attr.CompiledFrom states

theorem replaceFirst_names (attr : Attribute) (attributes : List Attribute) :
    (replaceFirst attr attributes).map (·.name) = attributes.map (·.name) := by
  induction attributes with
  | nil => rfl
  | cons existing rest ih =>
    unfold replaceFirst
    split
    · rename_i same
      simp [eq_of_beq same]
    · simp [ih]

theorem mem_replaceFirst {attributes : List Attribute} (member : other ∈ replaceFirst attr attributes) :
    other = attr ∨ other ∈ attributes := by
  induction attributes with
  | nil => cases member
  | cons existing rest ih =>
    unfold replaceFirst at member
    split at member
    · rcases List.mem_cons.mp member with same | later
      · exact .inl same
      · exact .inr (List.mem_cons_of_mem _ later)
    · rcases List.mem_cons.mp member with same | later
      · exact .inr (same ▸ List.mem_cons_self)
      · exact (ih later).imp_right (List.mem_cons_of_mem _)

theorem spec_none {registry : Registry H} : registry.spec? name = none ↔ name ∉ registry.names := by
  simp only [spec?, List.find?_eq_none, names, List.mem_map, beq_iff_eq, not_exists, not_and]

theorem spec_isSome {registry : Registry H} : (registry.spec? name).isSome ↔ name ∈ registry.names := by
  rw [Option.isSome_iff_ne_none, Ne, spec_none, not_not]

theorem spec_registered {registry : Registry H} (member : attr ∈ registry.attributes) :
    registry.spec? attr.name ≠ none := by
  intro absent
  exact spec_none.mp absent (List.mem_map_of_mem member)

theorem register_names (registry : Registry H) (attr : Attribute) :
    (registry.register attr).1.names =
      if attr.name ∈ registry.names then registry.names else registry.names ++ [attr.name] := by
  unfold register
  by_cases taken : attr.name ∈ registry.names
  · rw [if_pos (spec_isSome.mpr taken), if_pos taken]
    exact replaceFirst_names _ _
  · have absent : registry.spec? attr.name = none := spec_none.mpr taken
    rw [absent, if_neg taken]
    simp [names]

theorem mem_register {registry : Registry H} (member : other ∈ (registry.register attr).1.attributes) :
    other = attr ∨ other ∈ registry.attributes := by
  unfold register at member
  split at member
  · exact mem_replaceFirst member
  · rcases List.mem_append.mp member with old | new
    · exact .inr old
    · exact .inl (List.mem_singleton.mp new)

theorem draft_compiled {draft : Draft} (compiled : draft.compile = .ok attr) : ∃ states, attr.CompiledFrom states := by
  unfold Draft.compile at compiled
  split at compiled
  · cases compiled
  · cases compiled
  · exact ⟨_, Attribute.compiled_from compiled⟩

theorem Sound.register {registry : Registry H} (sound : registry.Sound)
    (compiled : ∃ states, attr.CompiledFrom states) : (registry.register attr).1.Sound := by
  constructor
  · rw [register_names]
    split
    · exact sound.unique
    · rename_i fresh
      rw [List.nodup_append]
      refine ⟨sound.unique, List.nodup_singleton _, ?_⟩
      intro name old other new same
      rw [List.mem_singleton.mp new] at same
      exact fresh (same ▸ old)
  · intro other member
    rcases mem_register member with rfl | old
    · exact compiled
    · exact sound.compiled other old

theorem Built.sound {registry : Registry H} (built : registry.Built) : registry.Sound := by
  induction built with
  | empty => exact ⟨.nil, by simp [Registry.empty]⟩
  | inherit _ ih => exact ⟨ih.unique, ih.compiled⟩
  | register _ draft compiled ih => exact ih.register (draft_compiled compiled)
  | observe _ observer ih => exact ⟨ih.unique, ih.compiled⟩
  | onHook _ hook callback ih => exact ⟨ih.unique, ih.compiled⟩

namespace Sound

variable {registry : Registry H} (sound : registry.Sound)
include sound

theorem same_name (one : attr ∈ registry.attributes) (two : other ∈ registry.attributes)
    (same : attr.name = other.name) : attr = other :=
  List.inj_on_of_nodup_map sound.unique one two same

theorem newValues_get (member : attr ∈ registry.attributes) : registry.newValues.get attr.name = some attr.initial := by
  refine Slots.get_ofList ?_ ?_
  · rw [List.map_map]
    exact sound.unique
  · exact List.mem_map_of_mem member

end Sound
end Registry
end StateAttributes

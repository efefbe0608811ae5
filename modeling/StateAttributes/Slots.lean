import StateAttributes.Forest

namespace StateAttributes

-- Entries in strictly ascending key order, so equal contents are equal values. A slot may be absent, or present
-- and empty.
structure Slots where
  entries : List (String × Option StateName)
  ascending : entries.Pairwise fun a b => a.1 < b.1
deriving DecidableEq, Repr

namespace Slots

theorem eq_of_entries {one other : Slots} (same : one.entries = other.entries) : one = other := by
  cases one
  cases other
  cases same
  rfl

def empty : Slots := ⟨[], .nil⟩

instance : Inhabited Slots := ⟨empty⟩

-- Replaces the entry of a key, or puts a new one where the order has its place.
def insertEntry (key : String) (value : Option StateName) :
    List (String × Option StateName) → List (String × Option StateName)
  | [] => [(key, value)]
  | entry :: rest =>
    if key < entry.1 then (key, value) :: entry :: rest
    else if key = entry.1 then (key, value) :: rest
    else entry :: insertEntry key value rest

theorem key_of_mem_insertEntry {key : String} {value : Option StateName}
    {entries : List (String × Option StateName)} {entry : String × Option StateName}
    (member : entry ∈ insertEntry key value entries) : entry.1 = key ∨ entry ∈ entries := by
  induction entries with
  | nil => simp only [insertEntry, List.mem_singleton] at member; exact .inl (by rw [member])
  | cons first rest ih =>
    unfold insertEntry at member
    split at member
    · rcases List.mem_cons.mp member with same | old
      · exact .inl (by rw [same])
      · exact .inr old
    · split at member
      · rcases List.mem_cons.mp member with same | old
        · exact .inl (by rw [same])
        · exact .inr (List.mem_cons_of_mem _ old)
      · rcases List.mem_cons.mp member with same | old
        · exact .inr (by rw [same]; exact List.mem_cons_self)
        · exact (ih old).imp_right (List.mem_cons_of_mem _)

theorem insertEntry_ascending {key : String} {value : Option StateName}
    {entries : List (String × Option StateName)}
    (ascending : entries.Pairwise fun a b => a.1 < b.1) :
    (insertEntry key value entries).Pairwise fun a b => a.1 < b.1 := by
  induction entries with
  | nil => exact List.pairwise_singleton _ _
  | cons first rest ih =>
    have ⟨above, tail⟩ := List.pairwise_cons.mp ascending
    unfold insertEntry
    split
    · rename_i before
      refine List.pairwise_cons.mpr ⟨fun entry member => ?_, ascending⟩
      rcases List.mem_cons.mp member with same | old
      · rw [same]; exact before
      · exact String.lt_trans before (above entry old)
    · split
      · rename_i same
        exact List.pairwise_cons.mpr ⟨fun entry member => by rw [same]; exact above entry member, tail⟩
      · rename_i notBefore different
        refine List.pairwise_cons.mpr ⟨fun entry member => ?_, ih tail⟩
        rcases key_of_mem_insertEntry member with same | old
        · rw [same]
          exact Std.lt_of_le_of_ne (String.not_lt.mp notBefore) (Ne.symm different)
        · exact above entry old

def insert (slots : Slots) (key : String) (value : Option StateName) : Slots :=
  ⟨insertEntry key value slots.entries, insertEntry_ascending slots.ascending⟩

-- What is stored under a key: nothing, or a value that may itself be empty.
def lookup (slots : Slots) (key : String) : Option (Option StateName) := slots.entries.lookup key

-- An empty slot and an absent one hold the same: nothing.
def get (slots : Slots) (key : String) : Option StateName := (slots.lookup key).join

def keys (slots : Slots) : List String := slots.entries.map (·.1)

-- Of repeated keys the last one counts.
def ofList (entries : List (String × Option StateName)) : Slots :=
  entries.foldl (fun slots (key, value) => slots.insert key value) empty

end Slots
end StateAttributes

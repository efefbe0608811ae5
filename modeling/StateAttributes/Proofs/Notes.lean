import StateAttributes.Proofs.Call

namespace StateAttributes

-- A record is known by its place in the history, since two records may be alike.
inductive Note where
  | kept
  | refused (strict : Bool) (refusal : Refusal)
  | moved (record : Nat) (transition : Transition)
  | failed (record : Nat)
  | heard (record position : Nat) (transition : Transition)
deriving DecidableEq, Repr

namespace Event

-- The events of a request. Nothing else emits them.
def isReport : Event → Bool
  | moved _ | refused _ _ | observed _ _ => true
  | compiled _ _ _ | registered _ _ | shadowed _ | calledBack _ => false

def transition? : Event → Option Transition
  | moved transition => some transition
  | _ => none

end Event

namespace Note

-- A request that is no move is not reported, and a failure only by the answer of the request.
def event? : Note → Option Event
  | kept | failed _ => none
  | refused strict refusal => some (.refused strict refusal)
  | moved _ transition => some (.moved transition)
  | heard _ position transition => some (.observed position transition)

def transition? : Note → Option Transition
  | moved _ transition => some transition
  | _ => none

def record? : Note → Option (Nat × Transition)
  | moved record transition => some (record, transition)
  | heard record _ transition => some (record, transition)
  | _ => none

def hearer? (record : Nat) : Note → Option Nat
  | heard other position _ => if other = record then some position else none
  | _ => none

def isStill : Note → Bool
  | kept | refused _ _ => true
  | moved _ _ | failed _ | heard _ _ _ => false

end Note

-- The observers that hear of a record, in the order in which they do.
def hearers (record : Nat) (notes : List Note) : List Nat := notes.filterMap (Note.hearer? record)

@[simp] theorem hearers_nil (record : Nat) : hearers record [] = [] := rfl

@[simp] theorem hearers_cons (record : Nat) (note : Note) (notes : List Note) :
    hearers record (note :: notes) = (note.hearer? record).toList ++ hearers record notes := by
  rw [hearers, List.filterMap_cons]
  cases note.hearer? record <;> rfl

@[simp] theorem hearers_append (record : Nat) (notes more : List Note) :
    hearers record (notes ++ more) = hearers record notes ++ hearers record more :=
  List.filterMap_append ..

-- Between two states of the history. A record that is made in between is heard of by all observers or by
-- none; one that was there before is heard of by those that are still due.
structure Reported (observers : Nat) (due : Nat → List Nat) (before after : History) (events : List Event)
    (notes : List Note) : Prop where
  log : events.filter Event.isReport = notes.filterMap Note.event?
  history : after.transitions = before.transitions ++ notes.filterMap Note.transition?
  heard : ∀ record, before.length ≤ record → record < after.length →
    hearers record notes = if .failed record ∈ notes then [] else List.range observers
  earlier : ∀ record, record < before.length → hearers record notes = due record
  genuine : ∀ note ∈ notes, ∀ record transition, note.record? = some (record, transition) →
    after.transitions[record]? = some transition
  fresh : ∀ record, .failed record ∈ notes → before.length ≤ record ∧ record < after.length

theorem History.length_record (history : History) (transition : Transition) :
    (history.record transition).length = history.length + 1 := by
  simp [record, length]

theorem History.record_last (history : History) (transition : Transition) :
    (history.record transition).transitions[history.length]? = some transition := by
  simp [record, length]

namespace Reported

variable {observers record : Nat} {due owed : Nat → List Nat} {before middle after : History}
  {events later : List Event} {notes more : List Note} {transition : Transition}

theorem of_due (reported : Reported observers due before after events notes)
    (same : ∀ record, due record = owed record) : Reported observers owed before after events notes := by
  obtain rfl : due = owed := funext same
  exact reported

theorem length_le (reported : Reported observers due before after events notes) : before.length ≤ after.length := by
  simp [History.length, reported.history]

theorem stays (reported : Reported observers due before after events notes)
    (stands : before.transitions[record]? = some transition) : after.transitions[record]? = some transition := by
  have inside : record < before.transitions.length := (List.getElem?_eq_some_iff.mp stands).1
  rw [reported.history, List.getElem?_append_left inside, stands]

theorem unheard (reported : Reported observers due before after events notes) (beyond : after.length ≤ record) :
    hearers record notes = [] := by
  rw [hearers, List.filterMap_eq_nil_iff]
  intro note member
  cases note with
  | heard other position told =>
    have stands := reported.genuine _ member other told rfl
    have inside : other < after.length := (List.getElem?_eq_some_iff.mp stands).1
    exact if_neg (by omega)
  | _ => rfl

theorem silent (silent : ∀ event ∈ events, event.isReport = false) :
    Reported observers (fun _ => []) before before events [] := by
  constructor
  case log => simpa using silent
  case history => simp
  case heard =>
    intro record low high
    omega
  case earlier => simp
  case genuine => simp
  case fresh => simp

theorem still (note : Note) (still : note.isStill) :
    Reported observers (fun _ => []) before before note.event?.toList [note] := by
  cases note with
  | moved | failed | heard => cases still
  | kept | refused =>
    constructor
    case log => rfl
    case history => exact (List.append_nil _).symm
    case heard =>
      intro record low high
      omega
    case earlier => exact fun _ _ => rfl
    case genuine => simp [Note.record?]
    case fresh => simp

theorem append (first : Reported observers due before middle events notes)
    (second : Reported observers owed middle after later more)
    (none : ∀ record, before.length ≤ record → owed record = []) :
    Reported observers (fun record => due record ++ owed record) before after (events ++ later) (notes ++ more) := by
  constructor
  case log => rw [List.filter_append, List.filterMap_append, first.log, second.log]
  case history => rw [List.filterMap_append, second.history, first.history, List.append_assoc]
  case heard =>
    intro record low high
    rw [hearers_append]
    by_cases early : record < middle.length
    · have settled : .failed record ∉ more := by
        intro member
        have := second.fresh record member
        omega
      rw [first.heard record low early, second.earlier record early, none record low]
      simp [settled]
    · have settled : .failed record ∉ notes := by
        intro member
        have := first.fresh record member
        omega
      rw [first.unheard (Nat.not_lt.mp early), second.heard record (Nat.not_lt.mp early) high]
      simp [settled]
  case earlier =>
    intro record low
    have early : record < middle.length := Nat.lt_of_lt_of_le low first.length_le
    rw [hearers_append, first.earlier record low, second.earlier record early]
  case genuine =>
    intro note member record transition about
    rcases List.mem_append.mp member with here | there
    · exact second.stays (first.genuine note here record transition about)
    · exact second.genuine note there record transition about
  case fresh =>
    intro record member
    have ascends := first.length_le
    have climbs := second.length_le
    rcases List.mem_append.mp member with here | there
    · have := first.fresh record here
      omega
    · have := second.fresh record there
      omega

theorem hears (reported : Reported observers due before after events notes)
    (stands : before.transitions[record]? = some transition) (position : Nat) :
    Reported observers (fun other => if other = record then position :: due other else due other) before after
      (.observed position transition :: events) (.heard record position transition :: notes) := by
  have inside : record < before.length := (List.getElem?_eq_some_iff.mp stands).1
  constructor
  case log => simp [List.filter_cons, Event.isReport, Note.event?, reported.log]
  case history => simp [List.filterMap_cons, Note.transition?, reported.history]
  case heard =>
    intro other low high
    have differ : record ≠ other := by omega
    simp [Note.hearer?, differ, reported.heard other low high]
  case earlier =>
    intro other low
    by_cases same : other = record
    · simp [Note.hearer?, same, reported.earlier record inside]
    · simp [Note.hearer?, same, Ne.symm same, reported.earlier other low]
  case genuine =>
    intro note member other told about
    rcases List.mem_cons.mp member with rfl | there
    · cases about
      exact reported.stays stands
    · exact reported.genuine note there other told about
  case fresh => simpa using reported.fresh

-- The record that a move makes, with all that follows from it.
theorem failed (reported : Reported observers (fun _ => []) (before.record transition) after events notes) :
    Reported observers (fun _ => []) before after (.moved transition :: events)
      (.moved before.length transition :: (notes ++ [.failed before.length])) := by
  have next := before.length_record transition
  have grows := reported.length_le
  constructor
  case log => simp [List.filter_cons, Event.isReport, Note.event?, reported.log]
  case history => simp [Note.transition?, reported.history, History.record]
  case heard =>
    intro record low high
    by_cases own : record = before.length
    · subst own
      simp [Note.hearer?, reported.earlier before.length (by omega)]
    · simp [Note.hearer?, own, reported.heard record (by omega) high]
  case earlier =>
    intro record low
    simp [Note.hearer?, reported.earlier record (by omega)]
  case genuine =>
    intro note member record told about
    rcases List.mem_cons.mp member with rfl | inner
    · cases about
      exact reported.stays (before.record_last transition)
    · rcases List.mem_append.mp inner with there | last
      · exact reported.genuine note there record told about
      · rw [List.mem_singleton.mp last] at about
        cases about
  case fresh =>
    intro record member
    have ways : .failed record ∈ notes ∨ record = before.length := by simpa using member
    rcases ways with inner | rfl
    · have := reported.fresh record inner
      omega
    · omega

theorem carried (reported : Reported observers
      (fun other => if other = before.length then List.range observers else []) (before.record transition) after events
      notes) :
    Reported observers (fun _ => []) before after (.moved transition :: events)
      (.moved before.length transition :: notes) := by
  have next := before.length_record transition
  have grows := reported.length_le
  constructor
  case log => simp [List.filter_cons, Event.isReport, Note.event?, reported.log]
  case history => simp [Note.transition?, reported.history, History.record]
  case heard =>
    intro record low high
    by_cases own : record = before.length
    · subst own
      have settled : .failed before.length ∉ notes := by
        intro member
        have := reported.fresh before.length member
        omega
      simp [Note.hearer?, reported.earlier before.length (by omega), settled]
    · simp [Note.hearer?, reported.heard record (by omega) high]
  case earlier =>
    intro record low
    simp [Note.hearer?, reported.earlier record (by omega), Nat.ne_of_lt low]
  case genuine =>
    intro note member record told about
    rcases List.mem_cons.mp member with rfl | there
    · cases about
      exact reported.stays (before.record_last transition)
    · exact reported.genuine note there record told about
  case fresh =>
    intro record member
    have := reported.fresh record (by simpa using member)
    omega

theorem moves (reported : Reported observers due before after events notes) :
    events.filterMap Event.transition? = notes.filterMap Note.transition? := by
  have report : ∀ event : Event, event.transition? = if event.isReport then event.transition? else none := by
    intro event
    cases event <;> rfl
  have note : ∀ note : Note, note.transition? = note.event?.bind Event.transition? := by
    intro note
    cases note <;> rfl
  calc
    events.filterMap Event.transition? = (events.filter Event.isReport).filterMap Event.transition? := by
      rw [List.filterMap_filter]
      exact List.filterMap_congr fun event _ => report event
    _ = notes.filterMap Note.transition? := by
      rw [reported.log, List.filterMap_filterMap]
      exact List.filterMap_congr fun other _ => (note other).symm

end Reported

end StateAttributes

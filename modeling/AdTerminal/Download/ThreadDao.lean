import AdTerminal.Download.DownloadTask
import AdTerminal.Library.ListUpdate

/-! The database under the segments. `DBHelper` hands out one `SQLiteDatabase` until somebody
closes it; every method of `ThreadDAOImpl` takes it, works on it and closes it, and only some of
the methods lock their own `ThreadDAOImpl`. -/

namespace AdTerminal.Db
open Transition ListUpdate
open Download (ThreadInfo)

/-- A method of `ThreadDAOImpl` and its arguments. -/
inductive Method where
  | insertThread (info : ThreadInfo)
  /-- `deleteThread` with the id of a thread. -/
  | deleteThreadId (url : String) (thread_id : Int)
  | deleteThread (url : String)
  | updateThread (url : String) (thread_id finished : Int)
  | getThread (url : String)
  | isExists (url : String) (thread_id : Int)
  deriving DecidableEq, Repr

def Method.isSynchronized : Method → Bool
  | .getThread _ => false
  | .isExists _ _ => false
  | _ => true

inductive Result where
  | void
  | resultList (infos : List ThreadInfo)
  | found (answer : Bool)
  deriving DecidableEq, Repr

/-- What a call does next. The databases the helper has opened are numbered from one. -/
inductive Phase where
  /-- The helper is asked for its database. -/
  | entered
  /-- The SQL statement is executed. -/
  | opened (db : Nat)
  /-- The cursor is moved to the first of the rows that it has ahead. -/
  | moving (db : Nat) (cursor resultList : List ThreadInfo)
  /-- A column index or a value is asked for, and that many more after it. -/
  | reading (db : Nat) (row : ThreadInfo) (left : Nat) (cursor resultList : List ThreadInfo)
  /-- The cursor is closed. -/
  | finishing (db : Nat) (resultList : List ThreadInfo)
  /-- The database is closed. -/
  | closing (db : Nat) (result : Result)
  | returned (result : Result)
  | thrown
  deriving DecidableEq, Repr

/-- A call of a method, by a thread on one of the `ThreadDAOImpl`s. -/
structure Call where
  thread : Nat
  dao : Nat
  method : Method
  phase : Phase
  deriving DecidableEq, Repr

/-- The helper with its database, the last one it opened, the table `thread_info` and the calls. -/
structure DBHelper where
  mDatabase : Nat := 0
  isOpen : Bool := false
  rows : List ThreadInfo := []
  calls : List Call := []
  deriving DecidableEq, Repr

inductive Event where
  /-- A thread enters a method. -/
  | call (thread dao : Nat) (method : Method)
  /-- `getWritableDatabase` or `getReadableDatabase`. -/
  | getDatabase (i : Nat)
  /-- A statement is executed, or a cursor is accessed. -/
  | access (i : Nat)
  /-- That throws, which ends the call and leaves the database as it is. -/
  | throws (i : Nat)
  | close (i : Nat)
  deriving DecidableEq, Repr

def Phase.isOver : Phase → Bool
  | .returned _ => true
  | .thrown => true
  | _ => false

/-- A thread is in one call at a time, and in one synchronized call of a `ThreadDAOImpl` there is
one thread. -/
def Call.admits (thread dao : Nat) (method : Method) (call : Call) : Bool :=
  call.phase.isOver ||
    (call.thread != thread && !(call.dao == dao && call.method.isSynchronized && method.isSynchronized))

/-- `getWritableDatabase` and `getReadableDatabase`. -/
def DBHelper.getDatabase (s : DBHelper) : DBHelper :=
  if s.isOpen then s else { s with mDatabase := s.mDatabase + 1, isOpen := true }

/-- The next statement or cursor access of a call, and what it leaves in the table. -/
def Call.access (call : Call) (rows : List ThreadInfo) : Option (Phase × List ThreadInfo) :=
  match call.phase with
  | .opened db =>
    match call.method with
    | .insertThread info => some (.closing db .void, Download.insertThread rows info)
    | .deleteThreadId url thread_id =>
      some (.closing db .void, rows.filter fun row => ¬ (row.url = url ∧ row.id = thread_id))
    | .deleteThread url => some (.closing db .void, Download.deleteThread rows url)
    | .updateThread url thread_id finished =>
      some (.closing db .void, Download.updateThread rows url thread_id finished)
    | .getThread url => some (.moving db (Download.getThread rows url) [], rows)
    | .isExists url thread_id =>
      some (.moving db (rows.filter fun row => row.url = url ∧ row.id = thread_id) [], rows)
  | .moving db cursor resultList =>
    match call.method, cursor with
    -- `isExists` does not close its cursor.
    | .isExists _ _, cursor => some (.closing db (.found !cursor.isEmpty), rows)
    -- A row has five values, and for each the index of its column is looked up first.
    | _, row :: cursor => some (.reading db row 9 cursor resultList, rows)
    | _, [] => some (.finishing db resultList, rows)
  | .reading db row (left + 1) cursor resultList => some (.reading db row left cursor resultList, rows)
  | .reading db row 0 cursor resultList => some (.moving db cursor (resultList ++ [row]), rows)
  | .finishing db resultList => some (.closing db (.resultList resultList), rows)
  | _ => none

def step (s : DBHelper) : Event → Option DBHelper
  | .call thread dao method =>
    if s.calls.all (Call.admits thread dao method) then
      some { s with calls := s.calls ++ [⟨thread, dao, method, .entered⟩] }
    else none
  | .getDatabase i =>
    s.calls[i]?.bind fun call =>
      match call.phase with
      | .entered =>
        some { s.getDatabase with calls := s.calls.set i { call with phase := .opened s.getDatabase.mDatabase } }
      | _ => none
  | .access i =>
    s.calls[i]?.bind fun call =>
      (call.access s.rows).map fun next =>
        { s with rows := next.2, calls := s.calls.set i { call with phase := next.1 } }
  | .throws i =>
    s.calls[i]?.bind fun call =>
      (call.access s.rows).map fun _ => { s with calls := s.calls.set i { call with phase := .thrown } }
  | .close i =>
    s.calls[i]?.bind fun call =>
      match call.phase with
      | .closing db result =>
        some { s with isOpen := s.isOpen && db != s.mDatabase,
                      calls := s.calls.set i { call with phase := .returned result } }
      | _ => none

/-- The accesses of a call that no other call comes between, one after the other. -/
def Call.accesses : Nat → Call → List ThreadInfo → Option (Phase × List ThreadInfo)
  | 0, call, rows => some (call.phase, rows)
  | n + 1, call, rows => (call.access rows).bind fun next => accesses n { call with phase := next.1 } next.2

theorem Call.accesses_row (thread dao db left : Nat) (method : Method) (row : ThreadInfo)
    (cursor resultList rows : List ThreadInfo) :
    Call.accesses (left + 1) ⟨thread, dao, method, .reading db row left cursor resultList⟩ rows =
      some (.moving db cursor (resultList ++ [row]), rows) := by
  induction left with
  | zero => rfl
  | succ left ih => exact ih

theorem Call.accesses_add (first second : Nat) (call : Call) (rows : List ThreadInfo) :
    call.accesses (first + second) rows = (call.accesses first rows).bind fun next =>
      Call.accesses second { call with phase := next.1 } next.2 := by
  induction first generalizing call rows with
  | zero => rw [Nat.zero_add]; rfl
  | succ first ih =>
    rw [Nat.succ_add]
    show (call.access rows).bind _ = ((call.access rows).bind _).bind _
    rw [Option.bind_assoc]
    exact congrArg _ (funext fun next => ih _ _)

theorem Call.accesses_cursor (thread dao db : Nat) (url : String) (cursor resultList rows : List ThreadInfo) :
    Call.accesses (11 * cursor.length + 2) ⟨thread, dao, .getThread url, .moving db cursor resultList⟩ rows =
      some (.closing db (.resultList (resultList ++ cursor)), rows) := by
  induction cursor generalizing resultList with
  | nil => simp [Call.accesses, Call.access]
  | cons row cursor ih =>
    have count : 11 * (row :: cursor).length + 2 = 1 + ((9 + 1) + (11 * cursor.length + 2)) := by
      rw [List.length_cons]
      omega
    have first : Call.accesses 1 ⟨thread, dao, .getThread url, .moving db (row :: cursor) resultList⟩ rows =
        some (.reading db row 9 cursor resultList, rows) := rfl
    rw [count, Call.accesses_add, first, Option.bind_some, Call.accesses_add, Call.accesses_row, Option.bind_some, ih,
      List.append_assoc, List.singleton_append]

/-- `getThread` gives back the rows of the URL, as the table has them when the query is executed. -/
theorem Call.accesses_getThread (thread dao db : Nat) (url : String) (rows : List ThreadInfo) :
    Call.accesses (1 + (11 * (Download.getThread rows url).length + 2)) ⟨thread, dao, .getThread url, .opened db⟩ rows =
      some (.closing db (.resultList (Download.getThread rows url)), rows) := by
  have first : Call.accesses 1 ⟨thread, dao, .getThread url, .opened db⟩ rows =
      some (.moving db (Download.getThread rows url) [], rows) := rfl
  rw [Call.accesses_add, first, Option.bind_some, Call.accesses_cursor, List.nil_append]

/-- The database that a statement or a cursor access of the call is still to come on. -/
def Phase.due : Phase → Option Nat
  | .opened db => some db
  | .moving db _ _ => some db
  | .reading db _ _ _ _ => some db
  | .finishing db _ => some db
  | _ => none

/-- The database that the call closes next. -/
def Phase.toClose : Phase → Option Nat
  | .closing db _ => some db
  | _ => none

/-- The database is open: the helper has opened it last, and nobody has closed it since. -/
def DBHelper.Open (s : DBHelper) (db : Nat) : Prop := db = s.mDatabase ∧ s.isOpen = true

/-- A statement or a cursor access is executed on an open database. -/
def OnOpen (s : DBHelper) : Event → Prop
  | .access i => ∀ call ∈ s.calls[i]?, ∀ db ∈ call.phase.due, s.Open db
  | .throws i => ∀ call ∈ s.calls[i]?, ∀ db ∈ call.phase.due, s.Open db
  | _ => True

/-- A database is closed when no call has a statement or a cursor access to come on it. -/
def Unshared (s : DBHelper) : Event → Prop
  | .close i => ∀ call ∈ s.calls[i]?, ∀ db ∈ call.phase.toClose, ∀ other ∈ s.calls, other.phase.due ≠ some db
  | _ => True

/-- No call has a statement or a cursor access to come. -/
def DBHelper.Done (s : DBHelper) : Prop := ∀ call ∈ s.calls, call.phase.due = none

variable {s t : DBHelper} {call other : Call} {i db : Nat}

theorem Phase.due_of_access {next : Phase × List ThreadInfo} {rows : List ThreadInfo}
    (accessed : call.access rows = some next) :
    ∃ db, call.phase.due = some db ∧ (next.1.due = some db ∨ next.1.due = none) := by
  unfold Call.access at accessed
  split at accessed
  next db opened =>
    have due : call.phase.due = some db := by rw [opened]; rfl
    split at accessed
    all_goals
      cases accessed
      exact ⟨db, due, by simp [Phase.due]⟩
  next db cursor resultList moving =>
    have due : call.phase.due = some db := by rw [moving]; rfl
    split at accessed
    all_goals
      cases accessed
      exact ⟨db, due, by simp [Phase.due]⟩
  next db row left cursor resultList reading =>
    cases accessed
    exact ⟨db, by rw [reading]; rfl, Or.inl rfl⟩
  next db row cursor resultList reading =>
    cases accessed
    exact ⟨db, by rw [reading]; rfl, Or.inl rfl⟩
  next db resultList finishing =>
    cases accessed
    exact ⟨db, by rw [finishing]; rfl, Or.inr rfl⟩
  next => cases accessed

/-- The events as far as open databases are concerned. -/
inductive Move (s t : DBHelper) : Event → Prop
  | entered (thread dao : Nat) (method : Method) (calls : t.calls = s.calls ++ [⟨thread, dao, method, .entered⟩])
    (same : t.mDatabase = s.mDatabase) (open_ : t.isOpen = s.isOpen) : Move s t (.call thread dao method)
  | taken (i : Nat) (call : Call) (present : s.calls[i]? = some call) (free : call.phase.due = none)
    (calls : t.calls = s.calls.set i { call with phase := .opened t.mDatabase }) (open_ : t.isOpen = true)
    (kept : s.isOpen = true → t.mDatabase = s.mDatabase)
    (new : s.isOpen = false → t.mDatabase = s.mDatabase + 1) : Move s t (.getDatabase i)
  | accessed (i db : Nat) (call : Call) (present : s.calls[i]? = some call) (due : call.phase.due = some db)
    (next : Phase) (left : next.due = some db ∨ next.due = none)
    (calls : t.calls = s.calls.set i { call with phase := next }) (same : t.mDatabase = s.mDatabase)
    (open_ : t.isOpen = s.isOpen) (event : Event) (kind : event = .access i ∨ event = .throws i) : Move s t event
  | closed (i db : Nat) (result : Result) (call : Call) (present : s.calls[i]? = some call)
    (phase : call.phase = .closing db result)
    (next : t = { s with isOpen := s.isOpen && db != s.mDatabase,
                         calls := s.calls.set i { call with phase := .returned result } }) : Move s t (.close i)

theorem move_of_step {event : Event} (taken : step s event = some t) : Move s t event := by
  cases event with
  | call thread dao method =>
    obtain ⟨_, same⟩ := Option.ite_none_right_eq_some.mp taken
    cases same
    exact .entered thread dao method rfl rfl rfl
  | getDatabase i =>
    obtain ⟨call, present, taken⟩ := Option.bind_eq_some_iff.mp taken
    split at taken
    next entered =>
      cases taken
      have free : call.phase.due = none := by rw [entered]; rfl
      cases open_ : s.isOpen with
      | true =>
        have same : s.getDatabase = s := if_pos open_
        rw [same]
        exact .taken i call present free rfl open_ (fun _ => rfl) fun shut => by simp [open_] at shut
      | false =>
        have same : s.getDatabase = { s with mDatabase := s.mDatabase + 1, isOpen := true } :=
          if_neg (by simp [open_])
        rw [same]
        exact .taken i call present free rfl rfl (fun shut => by simp [open_] at shut) fun _ => rfl
    next => cases taken
  | access i =>
    obtain ⟨call, present, taken⟩ := Option.bind_eq_some_iff.mp taken
    obtain ⟨next, accessed, same⟩ := Option.map_eq_some_iff.mp taken
    obtain ⟨db, due, left⟩ := Phase.due_of_access accessed
    cases same
    have moved := @Move.accessed s { s with rows := next.2, calls := s.calls.set i { call with phase := next.1 } }
    exact moved i db call present due next.1 left rfl rfl rfl _ (Or.inl rfl)
  | throws i =>
    obtain ⟨call, present, taken⟩ := Option.bind_eq_some_iff.mp taken
    obtain ⟨next, accessed, same⟩ := Option.map_eq_some_iff.mp taken
    obtain ⟨db, due, _⟩ := Phase.due_of_access accessed
    cases same
    have moved := @Move.accessed s { s with calls := s.calls.set i { call with phase := .thrown } }
    exact moved i db call present due .thrown (Or.inr rfl) rfl rfl rfl _ (Or.inr rfl)
  | close i =>
    obtain ⟨call, present, taken⟩ := Option.bind_eq_some_iff.mp taken
    split at taken
    next db result closing =>
      cases taken
      exact .closed i db result call present closing rfl
    next => cases taken

/-- A call other than the one that takes the step stays as it is. -/
theorem mem_set_of_due {calls : List Call} {new : Call} (present : calls[i]? = some call) (member : other ∈ calls)
    (different : other.phase.due ≠ call.phase.due) : other ∈ calls.set i new := by
  obtain ⟨j, found⟩ := List.mem_iff_getElem?.mp member
  have apart : i ≠ j := by
    intro same
    subst same
    cases present.symm.trans found
    exact different rfl
  exact List.mem_iff_getElem?.mpr ⟨j, by rw [List.getElem?_set_ne apart, found]⟩

/-- Every statement and cursor access to come is on an open database. -/
def Sound (s : DBHelper) : Prop := ∀ call ∈ s.calls, ∀ db, call.phase.due = some db → s.Open db

/-- No call works on a database that the helper has not opened yet. -/
def Numbered (s : DBHelper) : Prop := ∀ call ∈ s.calls, ∀ db, call.phase.due = some db → db ≤ s.mDatabase

/-- Some statement or cursor access is still to come on a database that is closed. -/
def Late (s : DBHelper) : Prop := ∃ call ∈ s.calls, ∃ db, call.phase.due = some db ∧ ¬ s.Open db

theorem Phase.due_closing {result : Result} (phase : call.phase = .closing db result) : call.phase.due = none := by
  rw [phase]
  rfl

/-- A database that work is still to come on had work to come on it before the step, or the step
has just handed it out. -/
theorem due_before {event : Event} (moved : Move s t event) (member : call ∈ t.calls)
    (due : call.phase.due = some db) :
    (∃ before ∈ s.calls, before.phase.due = some db) ∨ t.Open db := by
  cases moved with
  | entered thread dao method calls same open_ =>
    rw [calls, List.mem_append, List.mem_singleton] at member
    cases member with
    | inl old => exact Or.inl ⟨call, old, due⟩
    | inr new =>
      subst new
      cases due
  | taken i own present free calls open_ kept new =>
    rw [calls] at member
    cases List.mem_or_eq_of_mem_set member with
    | inl old => exact Or.inl ⟨call, old, due⟩
    | inr own =>
      subst own
      cases due
      exact Or.inr ⟨rfl, open_⟩
  | accessed i db' own present own_due next left calls same open_ _ kind =>
    rw [calls] at member
    cases List.mem_or_eq_of_mem_set member with
    | inl old => exact Or.inl ⟨call, old, due⟩
    | inr new =>
      subst new
      have equal : db' = db := by
        cases left with
        | inl still => exact Option.some.inj (still.symm.trans due)
        | inr none => cases none.symm.trans due
      exact Or.inl ⟨own, List.mem_of_getElem? present, equal ▸ own_due⟩
  | closed i db' result own present phase next =>
    subst next
    cases List.mem_or_eq_of_mem_set member with
    | inl old => exact Or.inl ⟨call, old, due⟩
    | inr new =>
      subst new
      cases due

/-- A database that work is to come on is closed only by a close that the work still needs. -/
theorem open_of_step {event : Event} (moved : Move s t event) (unshared : Unshared s event) (member : call ∈ s.calls)
    (due : call.phase.due = some db) (now : s.Open db) : t.Open db := by
  obtain ⟨current, was⟩ := now
  cases moved with
  | entered thread dao method calls same open_ => exact ⟨current.trans same.symm, open_.trans was⟩
  | taken i own present free calls open_ kept new => exact ⟨current.trans (kept was).symm, open_⟩
  | accessed i db' own present own_due next left calls same open_ _ kind =>
    exact ⟨current.trans same.symm, open_.trans was⟩
  | closed i db' result own present phase next =>
    subst next
    have apart : db' ≠ db := fun same => unshared own present db' (by rw [phase]; rfl) call member (same ▸ due)
    refine ⟨current, ?_⟩
    show (s.isOpen && db' != s.mDatabase) = true
    rw [was, ← current, Bool.true_and, bne_iff_ne]
    exact apart

theorem le_of_move {event : Event} (moved : Move s t event) : s.mDatabase ≤ t.mDatabase := by
  cases moved with
  | entered thread dao method calls same open_ => exact same.ge
  | taken i own present free calls open_ kept new =>
    cases was : s.isOpen with
    | true => exact (kept was).ge
    | false =>
      rw [new was]
      exact Nat.le_succ _
  | accessed i db' own present own_due next left calls same open_ _ kind => exact same.ge
  | closed i db' result own present phase next =>
    subst next
    exact le_rfl

theorem Sound.step {event : Event} (sound : Sound s) (unshared : Unshared s event) (taken : step s event = some t) :
    Sound t := by
  intro call member db due
  have moved := move_of_step taken
  cases due_before moved member due with
  | inl old =>
    obtain ⟨before, was, due⟩ := old
    exact open_of_step moved unshared was due (sound before was db due)
  | inr new => exact new

theorem Numbered.step {event : Event} (numbered : Numbered s) (taken : step s event = some t) : Numbered t := by
  intro call member db due
  have moved := move_of_step taken
  cases due_before moved member due with
  | inl old =>
    obtain ⟨before, was, due⟩ := old
    exact (numbered before was db due).trans (le_of_move moved)
  | inr new => exact new.1.le

/-- A database that is closed stays closed. -/
theorem shut_of_step {event : Event} (bound : db ≤ s.mDatabase) (shut : ¬ s.Open db)
    (taken : step s event = some t) : ¬ t.Open db := by
  cases move_of_step taken with
  | entered thread dao method calls same open_ =>
    intro now
    exact shut ⟨now.1.trans same, open_ ▸ now.2⟩
  | taken i own present free calls open_ kept new =>
    intro now
    cases was : s.isOpen with
    | true => exact shut ⟨now.1.trans (kept was), was⟩
    | false =>
      have later := new was
      have current := now.1
      omega
  | accessed i db' own present own_due next left calls same open_ _ kind =>
    intro now
    exact shut ⟨now.1.trans same, open_ ▸ now.2⟩
  | closed i db' result own present phase next =>
    subst next
    intro now
    exact shut ⟨now.1, (Bool.and_eq_true_iff.mp now.2).1⟩

theorem Late.step {event : Event} (late : Late s) (numbered : Numbered s) (onOpen : OnOpen s event)
    (taken : step s event = some t) : Late t := by
  obtain ⟨call, member, db, due, shut⟩ := late
  refine ⟨call, ?_, db, due, shut_of_step (numbered call member db due) shut taken⟩
  cases move_of_step taken with
  | entered thread dao method calls same open_ =>
    rw [calls]
    exact List.mem_append_left _ member
  | taken i own present free calls open_ kept new =>
    rw [calls]
    exact mem_set_of_due present member (by simp [due, free])
  | accessed i db' own present own_due next left calls same open_ event kind =>
    rw [calls]
    apply mem_set_of_due present member
    rw [due, own_due]
    intro same_db
    cases same_db
    -- The access of this very call would be one on a closed database.
    cases kind with
    | inl access =>
      subst access
      exact shut (onOpen own present db own_due)
    | inr throws =>
      subst throws
      exact shut (onOpen own present db own_due)
  | closed i db' result own present phase next =>
    subst next
    exact mem_set_of_due present member (by simp [due, Phase.due_closing phase])

/-- Closing a database that a call still needs leaves the call behind with it. -/
theorem late_of_shared {event : Event} (shared : ¬ Unshared s event) (taken : step s event = some t) : Late t := by
  cases move_of_step taken with
  | entered => exact absurd trivial shared
  | taken => exact absurd trivial shared
  | accessed i db' own present own_due next left calls same open_ event kind =>
    cases kind with
    | inl access =>
      subst access
      exact absurd trivial shared
    | inr throws =>
      subst throws
      exact absurd trivial shared
  | closed i db' result own present phase next =>
    subst next
    simp only [Unshared, not_forall, not_not] at shared
    obtain ⟨call, found, db, closing, other, member, due⟩ := shared
    cases present.symm.trans found
    rw [phase] at closing
    cases closing
    refine ⟨other, mem_set_of_due present member (by simp [due, Phase.due_closing phase]), db', due, ?_⟩
    intro now
    have apart := (Bool.and_eq_true_iff.mp now.2).2
    exact (bne_iff_ne.mp apart) now.1

/-- Nothing is executed on a closed database in a run where a database is closed only when no call
still needs it. In a run that leaves no call with something to execute, that is also necessary. -/
theorem on_open_iff_unshared (events : List Event) :
    (Steps step Unshared {} events → Steps step OnOpen {} events) ∧
      ∀ last, run step {} events = some last → last.Done →
        (Steps step OnOpen {} events ↔ Steps step Unshared {} events) := by
  have enough : Steps step Unshared {} events → Steps step OnOpen {} events := by
    refine @Steps.of_invariant _ _ step Sound _ _ ?_ (fun s e t sound unshared => sound.step unshared) _ _ ?_
    · intro s e sound _
      cases e with
      | access i => exact fun call present => sound call (List.mem_of_getElem? present)
      | throws i => exact fun call present => sound call (List.mem_of_getElem? present)
      | _ => trivial
    · exact fun call member => absurd member List.not_mem_nil
  refine ⟨enough, fun last whole done => ⟨fun onOpen => ?_, enough⟩⟩
  have empty : Numbered {} := fun call member => absurd member List.not_mem_nil
  refine Steps.of_end (fun s e t numbered _ => numbered.step) (fun s e t _ _ shared => late_of_shared shared)
    (fun s e t numbered late onOpen => late.step numbered onOpen) empty onOpen whole ?_
  rintro ⟨call, member, db, due, _⟩
  exact absurd (done call member) (by simp [due])

instance (s : DBHelper) (db : Nat) : Decidable (s.Open db) :=
  inferInstanceAs (Decidable (db = s.mDatabase ∧ s.isOpen = true))

instance (s : DBHelper) : Decidable s.Done := inferInstanceAs (Decidable (∀ call ∈ s.calls, call.phase.due = none))

instance (s : DBHelper) : DecidablePred (OnOpen s)
  | .access i => inferInstanceAs (Decidable (∀ call ∈ s.calls[i]?, ∀ db ∈ call.phase.due, s.Open db))
  | .throws i => inferInstanceAs (Decidable (∀ call ∈ s.calls[i]?, ∀ db ∈ call.phase.due, s.Open db))
  | .call .. => isTrue trivial
  | .getDatabase _ => isTrue trivial
  | .close _ => isTrue trivial

instance (s : DBHelper) : DecidablePred (Unshared s)
  | .close i => inferInstanceAs (Decidable (∀ call ∈ s.calls[i]?, ∀ db ∈ call.phase.toClose,
      ∀ other ∈ s.calls, other.phase.due ≠ some db))
  | .call .. => isTrue trivial
  | .getDatabase _ => isTrue trivial
  | .access _ => isTrue trivial
  | .throws _ => isTrue trivial

/-- A segment is stored through one `ThreadDAOImpl`, and another one, used after it, finds it there. -/
theorem stored_on_open : Steps step OnOpen {} ([.call 0 0 (.insertThread ⟨0, "a", 0, 9, 0⟩), .getDatabase 0, .access 0,
    .close 0, .call 0 1 (.getThread "a"), .getDatabase 1] ++ List.replicate 14 (.access 1) ++ [.close 1]) :=
  ((on_open_iff_unshared _).2 _ rfl (by decide)).mpr (by decide)

/-- A pool thread stores its progress and closes the database while the main thread, in a call on
another `ThreadDAOImpl`, has its query still to execute. -/
theorem query_on_closed : ¬ Steps step OnOpen {} [.call 0 1 (.getThread "b"), .getDatabase 0,
    .call 1 0 (.updateThread "a" 0 5), .getDatabase 1, .access 1, .close 1, .access 0] := by
  decide

end AdTerminal.Db

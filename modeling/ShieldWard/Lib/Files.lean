import ShieldWard.Lib.Bytes
import ShieldWard.Lib.System
import Mathlib.Logic.Function.Basic

/-!
# Programs that make files

Programs that create files exclusively, write, sync, close and remove them. Any number of them
run side by side, one system call at a time, and every call may fail and every program may be
killed between two of them. `Safe` is a weakest precondition over what a program owns, the
files it has made and not removed; `Owns.run` turns the programs' own proofs into a statement
about every interleaving: no program touches a file that it has not made.
-/

namespace Files

/-- The permission bits of a file. -/
abbrev Mode := BitVec 12

structure File where
  content : Bytes
  mode : Mode

def File.append (file : File) (data : Bytes) : File :=
  { file with content := file.content ++ data }

@[simp] theorem File.append_nil (file : File) : file.append [] = file := by
  simp [File.append]

@[simp] theorem File.append_append (file : File) (data more : Bytes) :
    (file.append data).append more = file.append (data ++ more) := by
  simp [File.append]

/-- Directory entries name files by number; a file without a name may still be written. -/
structure FileSystem (Entry : Type) where
  directory : Entry → Option ℕ
  files : ℕ → File
  /-- The number of the next file that is made. -/
  next : ℕ
  lt_next : ∀ entry number, directory entry = some number → number < next

/-- Where a path leads, in directories and links that no program here changes, and the
permission bits that a new file never gets. -/
structure Setting (Entry : Type) where
  entry : String → Entry
  umask : Mode

def Setting.mode {Entry : Type} (σ : Setting Entry) (permissions : Mode) : Mode :=
  permissions &&& ~~~σ.umask

/-- A new file has no permission that was not asked for. -/
theorem Setting.mode_and {Entry : Type} (σ : Setting Entry) {permissions others : Mode}
    (h : permissions &&& others = 0) : σ.mode permissions &&& others = 0 := by
  rw [Setting.mode, BitVec.and_assoc, BitVec.and_comm _ others, ← BitVec.and_assoc, h]
  exact BitVec.zero_and

/-! ## Programs -/

inductive Call
  | openExclusive (path : String) (permissions : Mode)
  | write (file : ℕ) (data : Bytes)
  | sync (file : ℕ)
  | close (file : ℕ)
  | remove (path : String)

/-- An opened file answers with its number, every other call with 0; an error is a text. -/
abbrev Answer := Except String ℕ

inductive Program (α : Type)
  | done (result : α)
  | call (request : Call) (next : Answer → Program α)

namespace Program

variable {α β : Type}

def bind : Program α → (α → Program β) → Program β
  | .done a, f => f a
  | .call request next, f => .call request fun answer => (next answer).bind f

instance : Monad Program where
  pure := .done
  bind := bind

@[simp] theorem pure_eq (a : α) : (pure a : Program α) = .done a := rfl

@[simp] theorem done_bind (a : α) (f : α → Program β) : (.done a >>= f : Program β) = f a := rfl

@[simp] theorem call_bind (request : Call) (next : Answer → Program α) (f : α → Program β) :
    (.call request next >>= f : Program β) = .call request fun answer => next answer >>= f :=
  rfl

/-- A call whose answer is the result. -/
def request (c : Call) : Program Answer := .call c .done

/-- The result of a program that has returned. -/
def result : Program α → Option α
  | .done a => some a
  | .call _ _ => none

theorem result_eq_some {program : Program α} {a : α} :
    program.result = some a ↔ program = .done a := by
  cases program <;> simp [result]

end Program

/-! ## Runs -/

section Runs

variable {Entry : Type} [DecidableEq Entry]

namespace FileSystem

/-- A new empty file under a free entry. -/
def create (fs : FileSystem Entry) (entry : Entry) (mode : Mode) : FileSystem Entry where
  directory := Function.update fs.directory entry (some fs.next)
  files := Function.update fs.files fs.next ⟨[], mode⟩
  next := fs.next + 1
  lt_next := by
    intro e number h
    by_cases he : e = entry
    · rw [he, Function.update_self] at h
      have := Option.some.inj h
      omega
    · rw [Function.update_of_ne he] at h
      exact Nat.lt_succ_of_lt (fs.lt_next e number h)

def append (fs : FileSystem Entry) (number : ℕ) (data : Bytes) : FileSystem Entry :=
  { fs with files := Function.update fs.files number ((fs.files number).append data) }

def unlink (fs : FileSystem Entry) (entry : Entry) : FileSystem Entry where
  directory := Function.update fs.directory entry none
  files := fs.files
  next := fs.next
  lt_next := by
    intro e number h
    by_cases he : e = entry
    · rw [he, Function.update_self] at h
      cases h
    · rw [Function.update_of_ne he] at h
      exact fs.lt_next e number h

end FileSystem

/-- A system call that succeeds. Only a free entry is opened exclusively, and only a name that
is there is removed. -/
def Setting.perform (σ : Setting Entry) (fs : FileSystem Entry) :
    Call → Option (FileSystem Entry × ℕ)
  | .openExclusive path permissions =>
    match fs.directory (σ.entry path) with
    | some _ => none
    | none => some (fs.create (σ.entry path) (σ.mode permissions), fs.next)
  | .write file data => some (fs.append file data, 0)
  | .sync _ => some (fs, 0)
  | .close _ => some (fs, 0)
  | .remove path =>
    match fs.directory (σ.entry path) with
    | some _ => some (fs.unlink (σ.entry path), 0)
    | none => none

/-- The paths that a call has failed to remove. -/
def Call.unremoved : Call → List String
  | .remove path => [path]
  | _ => []

/-- A program on its way. -/
structure Process (α : Type) where
  program : Program α
  killed : Bool
  /-- The paths that it has failed to remove. -/
  unremoved : List String

structure State (ι Entry α : Type) where
  files : FileSystem Entry
  process : ι → Process α

inductive Act (ι : Type)
  /-- The call that a process is at succeeds. -/
  | succeed (p : ι)
  | fail (p : ι) (message : String)
  /-- A write gets some bytes of its data into the file and goes on with the rest. -/
  | progress (p : ι) (count : ℕ)
  | kill (p : ι)

variable {ι : Type} [DecidableEq ι] {α : Type}

def State.set (s : State ι Entry α) (fs : FileSystem Entry) (p : ι) (process : Process α) :
    State ι Entry α where
  files := fs
  process := Function.update s.process p process

def step (σ : Setting Entry) (s : State ι Entry α) : Act ι → Option (State ι Entry α)
  | .kill p => some (s.set s.files p { s.process p with killed := true })
  | .succeed p =>
    match (s.process p).killed, (s.process p).program with
    | false, .call request next =>
      (σ.perform s.files request).map fun outcome =>
        s.set outcome.1 p { s.process p with program := next (.ok outcome.2) }
    | _, _ => none
  | .fail p message =>
    match (s.process p).killed, (s.process p).program with
    | false, .call request next =>
      some (s.set s.files p
        { s.process p with
          program := next (.error message)
          unremoved := request.unremoved ++ (s.process p).unremoved })
    | _, _ => none
  | .progress p count =>
    match (s.process p).killed, (s.process p).program with
    | false, .call (.write file data) next =>
      some (s.set (s.files.append file (data.take count)) p
        { s.process p with program := .call (.write file (data.drop count)) next })
    | _, _ => none

/-- The programs at their start, in a file system. -/
def State.initial (start : FileSystem Entry) (program : ι → Program α) : State ι Entry α where
  files := start
  process p := { program := program p, killed := false, unremoved := [] }

def machine (σ : Setting Entry) (start : FileSystem Entry) (program : ι → Program α) :
    System.Machine (State ι Entry α) (Act ι) where
  init s := s = State.initial start program
  step := step σ

/-! ## What a program owns -/

/-- The files that a program has made and not removed, with their numbers. -/
abbrev Holding (Entry : Type) := Entry → Option (ℕ × File)

/-- From these files and these paths not removed, whatever fails: the program writes only to
files that it holds and removes only names that it holds, `always` is true of what it holds
between any two bytes, and `post` holds of its result. -/
def Safe (σ : Setting Entry) (always : Holding Entry → Prop)
    (post : α → Holding Entry → List String → Prop) :
    Program α → Holding Entry → List String → Prop
  | .done a, held, unremoved => always held ∧ post a held unremoved
  | .call (.openExclusive path permissions) next, held, unremoved =>
    always held ∧
      (∀ message, Safe σ always post (next (.error message)) held unremoved) ∧
      (held (σ.entry path) = none → ∀ number, Safe σ always post (next (.ok number))
        (Function.update held (σ.entry path) (some (number, ⟨[], σ.mode permissions⟩))) unremoved)
  | .call (.write number data) next, held, unremoved =>
    ∃ entry file, held entry = some (number, file) ∧
      (∀ count, always
        (Function.update held entry (some (number, file.append (data.take count))))) ∧
      (∀ count message, Safe σ always post (next (.error message))
        (Function.update held entry (some (number, file.append (data.take count)))) unremoved) ∧
      Safe σ always post (next (.ok 0))
        (Function.update held entry (some (number, file.append data))) unremoved
  | .call (.sync _) next, held, unremoved =>
    always held ∧ ∀ answer, Safe σ always post (next answer) held unremoved
  | .call (.close _) next, held, unremoved =>
    always held ∧ ∀ answer, Safe σ always post (next answer) held unremoved
  | .call (.remove path) next, held, unremoved =>
    always held ∧ held (σ.entry path) ≠ none ∧
      (∀ message, Safe σ always post (next (.error message)) held (path :: unremoved)) ∧
      Safe σ always post (next (.ok 0)) (Function.update held (σ.entry path) none) unremoved

/-! ## Sharing a file system -/

/-- The holding of one program with another file, or none, under an entry. -/
def give (held : ι → Holding Entry) (p : ι) (entry : Entry) (made : Option (ℕ × File)) :
    ι → Holding Entry :=
  Function.update held p (Function.update (held p) entry made)

theorem give_eq_some {held : ι → Holding Entry} {p q : ι} {entry e : Entry}
    {made : Option (ℕ × File)} {m : ℕ × File} : give held p entry made q e = some m ↔
      (q = p ∧ e = entry ∧ made = some m) ∨ ((q ≠ p ∨ e ≠ entry) ∧ held q e = some m) := by
  unfold give
  by_cases hq : q = p
  · rw [hq, Function.update_self]
    by_cases he : e = entry
    · rw [he, Function.update_self]
      simp
    · rw [Function.update_of_ne he]
      simp [he]
  · rw [Function.update_of_ne hq]
    simp [hq]

/-- What the programs hold is there, under one name and for one program each; the files of
the start are as they were; and there is no other file. -/
structure Shares (start fs : FileSystem Entry) (held : ι → Holding Entry) : Prop where
  made : ∀ p entry number file, held p entry = some (number, file) →
    fs.directory entry = some number ∧ fs.files number = file ∧ start.next ≤ number
  apart : ∀ p q entry m m', held p entry = some m → held q entry = some m' → p = q
  named : ∀ entry number, fs.directory entry = some number →
    start.directory entry = some number ∨ ∃ p file, held p entry = some (number, file)
  single : ∀ entry entry' number, start.next ≤ number → fs.directory entry = some number →
    fs.directory entry' = some number → entry = entry'
  old_name : ∀ entry number, start.directory entry = some number →
    fs.directory entry = some number
  old_file : ∀ number < start.next, fs.files number = start.files number
  next_le : start.next ≤ fs.next

namespace Shares

variable {start fs : FileSystem Entry} {held : ι → Holding Entry} {p : ι} {entry : Entry}

omit [DecidableEq Entry] [DecidableEq ι] in
/-- At the start nothing is held. -/
theorem initial (start : FileSystem Entry) :
    Shares start start fun (_ : ι) => (fun _ => none : Holding Entry) where
  made := by simp
  apart := by simp
  named entry number h := .inl h
  single entry entry' number hnumber h _ :=
    absurd (start.lt_next entry number h) (Nat.not_lt.mpr hnumber)
  old_name entry number h := h
  old_file number _ := rfl
  next_le := Nat.le_refl _

/-- A new file has a number that no file had, and an entry that nobody holds. -/
theorem create (h : Shares start fs held) (hfree : fs.directory entry = none) (mode : Mode) :
    Shares start (fs.create entry mode) (give held p entry (some (fs.next, ⟨[], mode⟩))) where
  made q e number file hq := by
    rcases give_eq_some.mp hq with ⟨rfl, rfl, hm⟩ | ⟨_, hq⟩
    · cases hm
      exact ⟨Function.update_self .., Function.update_self .., h.next_le⟩
    · obtain ⟨hname, hfile, hnew⟩ := h.made q e number file hq
      have hne : e ≠ entry := by
        rintro rfl
        rw [hfree] at hname
        cases hname
      have hlt := fs.lt_next e number hname
      refine ⟨?_, ?_, hnew⟩
      · show Function.update fs.directory entry _ e = _
        rw [Function.update_of_ne hne, hname]
      · show Function.update fs.files fs.next _ number = _
        rw [Function.update_of_ne (by omega), hfile]
  apart q q' e m m' hq hq' := by
    have hnone : ∀ r m, held r entry ≠ some m := by
      intro r m hr
      rw [(h.made r entry m.1 m.2 hr).1] at hfree
      cases hfree
    rcases give_eq_some.mp hq with ⟨rfl, rfl, _⟩ | ⟨_, hold⟩
    · rcases give_eq_some.mp hq' with ⟨rfl, _, _⟩ | ⟨_, hold'⟩
      · rfl
      · exact absurd hold' (hnone _ _)
    · rcases give_eq_some.mp hq' with ⟨rfl, rfl, _⟩ | ⟨_, hold'⟩
      · exact absurd hold (hnone _ _)
      · exact h.apart q q' e m m' hold hold'
  named e number hname := by
    by_cases he : e = entry
    · subst he
      have hnumber : fs.next = number := by
        simpa [FileSystem.create] using hname
      exact .inr ⟨p, _, give_eq_some.mpr (.inl ⟨rfl, rfl, by rw [hnumber]⟩)⟩
    · have hold : fs.directory e = some number := by
        simpa [FileSystem.create, Function.update_of_ne he] using hname
      rcases h.named e number hold with hstart | ⟨q, file, hq⟩
      · exact .inl hstart
      · exact .inr ⟨q, file, give_eq_some.mpr (.inr ⟨.inr he, hq⟩)⟩
  single e e' number hnew he he' := by
    -- A number below the new one is an old name's, and the new one is the new entry's.
    have hat : ∀ {e}, (fs.create entry mode).directory e = some number →
        (e = entry ∧ number = fs.next) ∨ (fs.directory e = some number ∧ number < fs.next) := by
      intro e he
      by_cases hentry : e = entry
      · subst hentry
        exact .inl ⟨rfl, by simpa [FileSystem.create, eq_comm] using he⟩
      · have hold : fs.directory e = some number := by
          simpa [FileSystem.create, Function.update_of_ne hentry] using he
        exact .inr ⟨hold, fs.lt_next e number hold⟩
    rcases hat he with ⟨rfl, hnumber⟩ | ⟨he, hlt⟩
    · rcases hat he' with ⟨rfl, _⟩ | ⟨_, hlt⟩
      · rfl
      · omega
    · rcases hat he' with ⟨rfl, hnumber⟩ | ⟨he', _⟩
      · omega
      · exact h.single e e' number hnew he he'
  old_name e number hstart := by
    have hname := h.old_name e number hstart
    show Function.update fs.directory entry _ e = _
    rw [Function.update_of_ne, hname]
    rintro rfl
    rw [hfree] at hname
    cases hname
  old_file number hnumber := by
    have hle := h.next_le
    show Function.update fs.files fs.next _ number = _
    rw [Function.update_of_ne (by omega), h.old_file number hnumber]
  next_le := Nat.le_succ_of_le h.next_le

/-- Only the file that is written changes, and nobody else holds it. -/
theorem append {number : ℕ} {file : File} (h : Shares start fs held)
    (hp : held p entry = some (number, file)) (data : Bytes) :
    Shares start (fs.append number data)
      (give held p entry (some (number, file.append data))) := by
  obtain ⟨hname, hfile, hnew⟩ := h.made p entry number file hp
  refine ⟨?_, ?_, ?_, h.single, h.old_name, ?_, h.next_le⟩
  · intro q e number' file' hq
    rcases give_eq_some.mp hq with ⟨rfl, rfl, hm⟩ | ⟨hne, hold⟩
    · cases hm
      refine ⟨hname, ?_, hnew⟩
      show Function.update fs.files number _ number = _
      rw [Function.update_self, hfile]
    -- another file that someone holds has another number
    · obtain ⟨hname', hfile', hnew'⟩ := h.made q e number' file' hold
      refine ⟨hname', ?_, hnew'⟩
      show Function.update fs.files number _ number' = _
      rw [Function.update_of_ne, hfile']
      rintro rfl
      have he := h.single e entry number' hnew hname' hname
      subst he
      exact hne.elim (fun hqp => hqp (h.apart q p e _ _ hold hp)) fun hee => hee rfl
  · intro q q' e m m' hq hq'
    have hheld : ∀ {r m}, give held p entry (some (number, file.append data)) r e = some m →
        ∃ m, held r e = some m := by
      intro r m hr
      rcases give_eq_some.mp hr with ⟨rfl, rfl, _⟩ | ⟨_, hr⟩
      · exact ⟨_, hp⟩
      · exact ⟨_, hr⟩
    obtain ⟨m, hq⟩ := hheld hq
    obtain ⟨m', hq'⟩ := hheld hq'
    exact h.apart q q' e m m' hq hq'
  · intro e number' hname'
    rcases h.named e number' hname' with hstart | ⟨q, file', hq⟩
    · exact .inl hstart
    · refine .inr ?_
      by_cases hsame : q = p ∧ e = entry
      · obtain ⟨rfl, rfl⟩ := hsame
        cases hq.symm.trans hp
        exact ⟨q, _, give_eq_some.mpr (.inl ⟨rfl, rfl, rfl⟩)⟩
      · exact ⟨q, file', give_eq_some.mpr (.inr ⟨Decidable.not_and_iff_or_not.mp hsame, hq⟩)⟩
  · intro number' hnumber'
    show Function.update fs.files number _ number' = _
    rw [Function.update_of_ne (by omega), h.old_file number' hnumber']

/-- The name that is removed is no name of the start, and nobody else's. -/
theorem unlink {m : ℕ × File} (h : Shares start fs held) (hp : held p entry = some m) :
    Shares start (fs.unlink entry) (give held p entry none) := by
  obtain ⟨hname, _, hnew⟩ := h.made p entry m.1 m.2 hp
  -- what is still held was held before, under another name
  have hother : ∀ {q e m'}, give held p entry none q e = some m' →
      held q e = some m' ∧ e ≠ entry := by
    intro q e m' hq
    rcases give_eq_some.mp hq with ⟨_, _, hm⟩ | ⟨hne, hold⟩
    · cases hm
    · refine ⟨hold, ?_⟩
      rintro rfl
      exact hne.elim (fun hqp => hqp (h.apart q p e _ _ hold hp)) fun hee => hee rfl
  have hleft : ∀ {e number}, (fs.unlink entry).directory e = some number →
      fs.directory e = some number ∧ e ≠ entry := by
    intro e number he
    by_cases hentry : e = entry
    · subst hentry
      simp [FileSystem.unlink] at he
    · exact ⟨by simpa [FileSystem.unlink, Function.update_of_ne hentry] using he, hentry⟩
  have hkept : ∀ {e number}, fs.directory e = some number → e ≠ entry →
      (fs.unlink entry).directory e = some number := by
    intro e number he hne
    show Function.update fs.directory entry none e = _
    rw [Function.update_of_ne hne, he]
  refine ⟨?_, ?_, ?_, ?_, ?_, h.old_file, h.next_le⟩
  · intro q e number file hq
    obtain ⟨hq, hne⟩ := hother hq
    obtain ⟨hname', hfile', hnew'⟩ := h.made q e number file hq
    exact ⟨hkept hname' hne, hfile', hnew'⟩
  · intro q q' e m m' hq hq'
    exact h.apart q q' e m m' (hother hq).1 (hother hq').1
  · intro e number he
    obtain ⟨he, hne⟩ := hleft he
    rcases h.named e number he with hstart | ⟨q, file, hq⟩
    · exact .inl hstart
    · exact .inr ⟨q, file, give_eq_some.mpr (.inr ⟨.inr hne, hq⟩)⟩
  · intro e e' number hnumber he he'
    exact h.single e e' number hnumber (hleft he).1 (hleft he').1
  · intro e number hstart
    refine hkept (h.old_name e number hstart) ?_
    rintro rfl
    have hlt := start.lt_next e number hstart
    have hsame := Option.some.inj ((h.old_name e number hstart).symm.trans hname)
    omega

end Shares

/-! ## Every interleaving -/

/-- Each program would be safe from here on with what it holds, a killed one as well. -/
structure Owns (σ : Setting Entry) (start : FileSystem Entry) (always : ι → Holding Entry → Prop)
    (post : ι → α → Holding Entry → List String → Prop) (s : State ι Entry α)
    (held : ι → Holding Entry) : Prop where
  shares : Shares start s.files held
  safe : ∀ p, Safe σ (always p) (post p) (s.process p).program (held p) (s.process p).unremoved

section Owns

variable {σ : Setting Entry} {start : FileSystem Entry}

/-- A program that is safe is within its bounds now. -/
theorem Safe.now {always : Holding Entry → Prop}
    {post : α → Holding Entry → List String → Prop} {program : Program α}
    {held : Holding Entry} {unremoved : List String}
    (h : Safe σ always post program held unremoved) : always held := by
  cases program with
  | done a => exact h.1
  | call request next =>
    cases request with
    | openExclusive path permissions => exact h.1
    | write number data =>
      obtain ⟨entry, file, hheld, halways, _⟩ := h
      have hzero := halways 0
      rwa [List.take_zero, File.append_nil, ← hheld, Function.update_eq_self] at hzero
    | sync number => exact h.1
    | close number => exact h.1
    | remove path => exact h.1

/-- The rest of a write is safe after some of its bytes. -/
theorem Safe.rest {always : Holding Entry → Prop}
    {post : α → Holding Entry → List String → Prop} {number : ℕ} {data : Bytes}
    {next : Answer → Program α} {held : Holding Entry} {unremoved : List String}
    (h : Safe σ always post (.call (.write number data) next) held unremoved) (count : ℕ) :
    ∃ entry file, held entry = some (number, file) ∧
      Safe σ always post (.call (.write number (data.drop count)) next)
        (Function.update held entry (some (number, file.append (data.take count)))) unremoved := by
  obtain ⟨entry, file, hheld, halways, hfail, hdone⟩ := h
  -- What is written after the rest is what is written after a longer part of the whole.
  have htake : ∀ more, (file.append (data.take count)).append ((data.drop count).take more) =
      file.append (data.take (count + more)) := by
    intro more
    rw [File.append_append, List.take_add]
  refine ⟨entry, file, hheld, entry, file.append (data.take count), Function.update_self ..,
    ?_, ?_, ?_⟩
  · intro more
    rw [Function.update_idem, htake]
    exact halways _
  · intro more message
    rw [Function.update_idem, htake]
    exact hfail _ message
  · rw [Function.update_idem, File.append_append, List.take_append_drop]
    exact hdone

variable {always : ι → Holding Entry → Prop} {post : ι → α → Holding Entry → List String → Prop}
  {s s' : State ι Entry α} {held : ι → Holding Entry} {p : ι}

/-- A call of one program changes what it holds, and the other programs are safe as before. -/
theorem Owns.update (h : Owns σ start always post s held) {fs : FileSystem Entry} {e : Entry}
    {made : Option (ℕ × File)} {process : Process α}
    (hshares : Shares start fs (give held p e made))
    (hsafe : Safe σ (always p) (post p) process.program (Function.update (held p) e made)
      process.unremoved) :
    Owns σ start always post (s.set fs p process) (give held p e made) where
  shares := hshares
  safe q := by
    by_cases hqp : q = p
    · subst hqp
      simpa [State.set, give] using hsafe
    · simpa [State.set, give, hqp] using h.safe q

/-- A call that leaves the files alone changes nothing of what is held. -/
theorem Owns.keep (h : Owns σ start always post s held) {process : Process α}
    (hsafe : Safe σ (always p) (post p) process.program (held p) process.unremoved) :
    Owns σ start always post (s.set s.files p process) held where
  shares := h.shares
  safe q := by
    by_cases hqp : q = p
    · subst hqp
      simpa [State.set] using hsafe
    · simpa [State.set, hqp] using h.safe q

omit [DecidableEq ι] in
/-- What a program that has returned holds. -/
theorem Owns.ends (h : Owns σ start always post s held) {a : α}
    (hdone : (s.process p).program = .done a) :
    post p a (held p) (s.process p).unremoved := by
  have hsafe := h.safe p
  rw [hdone] at hsafe
  exact hsafe.2

/-- What a program may own after the call that it is at. -/
theorem Owns.succeed (h : Owns σ start always post s held)
    (hs : step σ s (.succeed p) = some s') : ∃ held', Owns σ start always post s' held' := by
  have hsafe := h.safe p
  simp only [Files.step] at hs
  split at hs
  · next request next _ hprogram =>
    rw [hprogram] at hsafe
    obtain ⟨⟨fs, answer⟩, hperform, rfl⟩ := Option.map_eq_some_iff.mp hs
    cases request with
    | openExclusive path permissions =>
      cases hfree : s.files.directory (σ.entry path) with
      | some number => simp [Setting.perform, hfree] at hperform
      | none =>
        simp only [Setting.perform, hfree, Option.some.injEq, Prod.mk.injEq] at hperform
        obtain ⟨rfl, rfl⟩ := hperform
        -- Nobody holds an entry that is free.
        have hnone : held p (σ.entry path) = none := by
          apply Option.eq_none_iff_forall_ne_some.mpr
          rintro m hm
          rw [(h.shares.made p _ m.1 m.2 hm).1] at hfree
          cases hfree
        exact ⟨_, h.update (h.shares.create hfree _) (hsafe.2.2 hnone _)⟩
    | write number data =>
      obtain ⟨rfl, rfl⟩ := Prod.mk.inj (Option.some.inj hperform)
      obtain ⟨entry, file, hheld, _, _, hdone⟩ := hsafe
      exact ⟨_, h.update (h.shares.append hheld data) hdone⟩
    | sync number =>
      obtain ⟨rfl, rfl⟩ := Prod.mk.inj (Option.some.inj hperform)
      exact ⟨held, h.keep (hsafe.2 _)⟩
    | close number =>
      obtain ⟨rfl, rfl⟩ := Prod.mk.inj (Option.some.inj hperform)
      exact ⟨held, h.keep (hsafe.2 _)⟩
    | remove path =>
      obtain ⟨m, hm⟩ := Option.ne_none_iff_exists'.mp hsafe.2.1
      have hname := (h.shares.made p _ m.1 m.2 hm).1
      simp only [Setting.perform, hname, Option.some.injEq, Prod.mk.injEq] at hperform
      obtain ⟨rfl, rfl⟩ := hperform
      exact ⟨_, h.update (h.shares.unlink hm) hsafe.2.2.2⟩
  · cases hs

theorem Owns.fail (h : Owns σ start always post s held) {message : String}
    (hs : step σ s (.fail p message) = some s') : ∃ held', Owns σ start always post s' held' := by
  have hsafe := h.safe p
  simp only [Files.step] at hs
  split at hs
  · next request next _ hprogram =>
    rw [hprogram] at hsafe
    obtain rfl := Option.some.inj hs
    cases request with
    | openExclusive path permissions => exact ⟨held, h.keep (hsafe.2.1 _)⟩
    | write number data =>
      -- Bytes that got into the file before the failure are steps of their own.
      obtain ⟨entry, file, hheld, _, hfail, _⟩ := hsafe
      have hzero := hfail 0 message
      rw [List.take_zero, File.append_nil, ← hheld, Function.update_eq_self] at hzero
      exact ⟨held, h.keep hzero⟩
    | sync number => exact ⟨held, h.keep (hsafe.2 _)⟩
    | close number => exact ⟨held, h.keep (hsafe.2 _)⟩
    | remove path => exact ⟨held, h.keep (hsafe.2.2.1 _)⟩
  · cases hs

theorem Owns.progress (h : Owns σ start always post s held) {count : ℕ}
    (hs : step σ s (.progress p count) = some s') : ∃ held', Owns σ start always post s' held' := by
  have hsafe := h.safe p
  simp only [Files.step] at hs
  split at hs
  · next number data next _ hprogram =>
    rw [hprogram] at hsafe
    obtain rfl := Option.some.inj hs
    obtain ⟨entry, file, hheld, hrest⟩ := hsafe.rest count
    exact ⟨_, h.update (h.shares.append hheld _) hrest⟩
  · cases hs

theorem Owns.step (h : Owns σ start always post s held) {a : Act ι}
    (hs : step σ s a = some s') : ∃ held', Owns σ start always post s' held' := by
  cases a with
  | succeed p => exact h.succeed hs
  | fail p message => exact h.fail hs
  | progress p count => exact h.progress hs
  | kill p =>
    obtain rfl := Option.some.inj hs
    exact ⟨held, h.keep (h.safe p)⟩

/-- Programs that are safe on their own are safe together: in every interleaving each holds
what its own proof says, nobody holds what another holds, and the files that were there at the
start are as they were. -/
theorem Owns.run {program : ι → Program α}
    (hsafe : ∀ p, Safe σ (always p) (post p) (program p) (fun _ => none) [])
    (hs : (machine σ start program).Reachable s) : ∃ held, Owns σ start always post s held := by
  apply hs.invariant (I := fun s => ∃ held, Owns σ start always post s held)
  · rintro _ rfl
    exact ⟨fun _ _ => none, .initial start, hsafe⟩
  · rintro s a s' ⟨held, h⟩ hstep
    exact h.step hstep

/-- The rule of sequence. -/
theorem Safe.bind {β : Type} {always : Holding Entry → Prop}
    {middle : α → Holding Entry → List String → Prop}
    {post : β → Holding Entry → List String → Prop} {program : Program α} {f : α → Program β}
    {held : Holding Entry} {unremoved : List String}
    (h : Safe σ always middle program held unremoved)
    (hf : ∀ a held unremoved, always held → middle a held unremoved →
      Safe σ always post (f a) held unremoved) :
    Safe σ always post (program >>= f) held unremoved := by
  induction program generalizing held unremoved with
  | done a => exact hf a held unremoved h.1 h.2
  | call request next ih =>
    rw [Program.call_bind]
    cases request with
    | openExclusive path permissions =>
      exact ⟨h.1, fun message => ih _ (h.2.1 message), fun hnone number =>
        ih _ (h.2.2 hnone number)⟩
    | write number data =>
      obtain ⟨entry, file, hheld, halways, hfail, hdone⟩ := h
      exact ⟨entry, file, hheld, halways, fun count message => ih _ (hfail count message),
        ih _ hdone⟩
    | sync number => exact ⟨h.1, fun answer => ih _ (h.2 answer)⟩
    | close number => exact ⟨h.1, fun answer => ih _ (h.2 answer)⟩
    | remove path =>
      exact ⟨h.1, h.2.1, fun message => ih _ (h.2.2.1 message), ih _ h.2.2.2⟩

end Owns

end Runs

end Files

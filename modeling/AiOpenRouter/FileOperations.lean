/-
Programs that read and write files.

The operations of a run are numbered, and a fault is the message with which the
operation of a number fails.  A write replaces the whole text of a file, or leaves it
alone.

* `Program` is what such a program does, under any faults;
* `bind_eq_ok` and `bind_eq_error` take a sequence apart;
* a program that is `ReadOnly` leaves the files alone, and one that is `Atomic` does
  so when it fails;
* `Yields` is what a program that only reads answers when nothing fails;
* `Served` says that the operations of a list do not fail.
-/
import Mathlib.Logic.Function.Basic
import Mathlib.Data.Nat.Notation

namespace Files

/-- What the files hold (none: there is no such file), and how many operations were made. -/
@[ext] structure State (φ τ : Type) where
  content : φ → Option τ
  made : ℕ

/-- The message of each operation that fails, by its number. -/
abbrev Faults : Type := ℕ → Option String

def Program (ε φ τ α : Type) : Type := Faults → State φ τ → Except ε α × State φ τ

namespace Program

variable {ε φ τ α β : Type}

protected def pure (a : α) : Program ε φ τ α := fun _ s => (.ok a, s)

protected def bind (p : Program ε φ τ α) (next : α → Program ε φ τ β) : Program ε φ τ β :=
  fun faults s =>
    match p faults s with
    | (.ok a, s') => next a faults s'
    | (.error e, s') => (.error e, s')

instance : Monad (Program ε φ τ) where
  pure := Program.pure
  bind := Program.bind

def ofExcept (result : Except ε α) : Program ε φ τ α := fun _ s => (result, s)

def isFile (file : φ) : Program ε φ τ Bool := fun _ s => (.ok (s.content file).isSome, s)

def read (fail : String → ε) (file : φ) : Program ε φ τ (Option τ) := fun faults s =>
  match s.content file, faults s.made with
  | some _, some message => (.error (fail message), ⟨s.content, s.made + 1⟩)
  | text, _ => (.ok text, ⟨s.content, s.made + 1⟩)

def makeDirectory (fail : String → ε) : Program ε φ τ Unit := fun faults s =>
  match faults s.made with
  | some message => (.error (fail message), ⟨s.content, s.made + 1⟩)
  | none => (.ok (), ⟨s.content, s.made + 1⟩)

def write [DecidableEq φ] (fail : String → ε) (file : φ) (text : τ) : Program ε φ τ Unit :=
  fun faults s =>
    match faults s.made with
    | some message => (.error (fail message), ⟨s.content, s.made + 1⟩)
    | none => (.ok (), ⟨Function.update s.content file (some text), s.made + 1⟩)

/-! ### Sequences -/

section Sequences

variable {p : Program ε φ τ α} {next : α → Program ε φ τ β} {faults : Faults} {s s'' : State φ τ}

@[simp] theorem pure_apply (a : α) : (pure a : Program ε φ τ α) faults s = (.ok a, s) := rfl

theorem pure_eq_ok {a a' : α} :
    (pure a : Program ε φ τ α) faults s = (.ok a', s'') ↔ a' = a ∧ s'' = s := by
  rw [pure_apply, Prod.mk.injEq, Except.ok.injEq, eq_comm, @eq_comm _ s]

variable {s' : State φ τ}

theorem bind_apply_ok {a : α} (h : p faults s = (.ok a, s')) :
    (p >>= next) faults s = next a faults s' := by
  show Program.bind p next faults s = _
  rw [Program.bind, h]

theorem bind_apply_error {e : ε} (h : p faults s = (.error e, s')) :
    (p >>= next) faults s = (.error e, s') := by
  show Program.bind p next faults s = _
  rw [Program.bind, h]

theorem map_snd (f : α → β) :
    ((p >>= fun a => (pure (f a) : Program ε φ τ β)) faults s).2 = (p faults s).2 := by
  rcases hp : p faults s with ⟨e | a, s'⟩
  · rw [bind_apply_error hp]
  · rw [bind_apply_ok hp, pure_apply]

/-- **A sequence answers when both parts do.** -/
theorem bind_eq_ok {b : β} : (p >>= next) faults s = (.ok b, s'') ↔
    ∃ a s', p faults s = (.ok a, s') ∧ next a faults s' = (.ok b, s'') := by
  constructor
  · intro h
    rcases hp : p faults s with ⟨e | a, s'⟩
    · rw [bind_apply_error hp] at h
      cases h
    · rw [bind_apply_ok hp] at h
      exact ⟨a, s', rfl, h⟩
  · rintro ⟨a, s', hp, hnext⟩
    rw [bind_apply_ok hp, hnext]

/-- **A sequence stops in one of its parts.** -/
theorem bind_eq_error {e : ε} : (p >>= next) faults s = (.error e, s'') ↔
    p faults s = (.error e, s'') ∨
      ∃ a s', p faults s = (.ok a, s') ∧ next a faults s' = (.error e, s'') := by
  constructor
  · intro h
    rcases hp : p faults s with ⟨e' | a, s'⟩
    · rw [bind_apply_error hp] at h
      cases h
      exact .inl rfl
    · rw [bind_apply_ok hp] at h
      exact .inr ⟨a, s', rfl, h⟩
  · rintro (hp | ⟨a, s', hp, hnext⟩)
    · rw [bind_apply_error hp]
    · rw [bind_apply_ok hp, hnext]

theorem ofExcept_eq_ok {result : Except ε α} {a : α} :
    (ofExcept result : Program ε φ τ α) faults s = (.ok a, s') ↔ result = .ok a ∧ s = s' :=
  Prod.ext_iff

end Sequences

/-! ### The operations -/

section Operations

variable {fail : String → ε} {faults : Faults} {s s' : State φ τ}

theorem read_eq_ok {file : φ} {text : Option τ} :
    (read fail file : Program ε φ τ (Option τ)) faults s = (.ok text, s') ↔
      ((s.content file).isSome = true → faults s.made = none) ∧ text = s.content file ∧
        s' = ⟨s.content, s.made + 1⟩ := by
  unfold read
  rcases hcontent : s.content file with _ | old <;> rcases hfault : faults s.made with _ | message
  all_goals simp [eq_comm]

theorem read_bind_eq_ok {file : φ} {next : Option τ → Program ε φ τ α} {a : α} :
    ((read fail file : Program ε φ τ (Option τ)) >>= next) faults s = (.ok a, s') ↔
      ((s.content file).isSome = true → faults s.made = none) ∧
        next (s.content file) faults ⟨s.content, s.made + 1⟩ = (.ok a, s') := by
  rw [bind_eq_ok]
  constructor
  · rintro ⟨_, _, hread, hnext⟩
    obtain ⟨hserved, rfl, rfl⟩ := read_eq_ok.1 hread
    exact ⟨hserved, hnext⟩
  · rintro ⟨hserved, hnext⟩
    exact ⟨_, _, read_eq_ok.2 ⟨hserved, rfl, rfl⟩, hnext⟩

theorem makeDirectory_eq_ok {u : Unit} :
    (makeDirectory fail : Program ε φ τ Unit) faults s = (.ok u, s') ↔
      faults s.made = none ∧ s' = ⟨s.content, s.made + 1⟩ := by
  unfold makeDirectory
  rcases hfault : faults s.made with _ | message
  all_goals simp [eq_comm]

theorem write_eq_ok [DecidableEq φ] {file : φ} {text : τ} {u : Unit} :
    (write fail file text : Program ε φ τ Unit) faults s = (.ok u, s') ↔
      faults s.made = none ∧ s' = ⟨Function.update s.content file (some text), s.made + 1⟩ := by
  unfold write
  rcases hfault : faults s.made with _ | message
  all_goals simp [eq_comm]

end Operations

/-! ### Programs that leave the files alone -/

def ReadOnly (p : Program ε φ τ α) : Prop := ∀ faults s, (p faults s).2.content = s.content

/-- The program writes no file when it fails in these circumstances. -/
def AtomicAt (p : Program ε φ τ α) (faults : Faults) (s : State φ τ) : Prop :=
  ∀ e s', p faults s = (.error e, s') → s'.content = s.content

def Atomic (p : Program ε φ τ α) : Prop := ∀ faults s, p.AtomicAt faults s

section Closure

variable {p : Program ε φ τ α} {next : α → Program ε φ τ β}

variable {faults : Faults} {s : State φ τ} (fail : String → ε)

theorem ReadOnly.content_eq (h : p.ReadOnly) {s' : State φ τ} {result : Except ε α}
    (hp : p faults s = (result, s')) : s'.content = s.content := by
  have := h faults s
  rwa [hp] at this

theorem ReadOnly.atomic (h : p.ReadOnly) : p.Atomic := fun _ _ _ _ hp => h.content_eq hp

theorem readOnly_pure (a : α) : (pure a : Program ε φ τ α).ReadOnly := fun _ _ => rfl

theorem readOnly_ofExcept (result : Except ε α) : (ofExcept result : Program ε φ τ α).ReadOnly :=
  fun _ _ => rfl

theorem readOnly_isFile (file : φ) : (isFile file : Program ε φ τ Bool).ReadOnly := fun _ _ => rfl

theorem readOnly_read (file : φ) : (read fail file : Program ε φ τ (Option τ)).ReadOnly := by
  intro faults s
  unfold read
  rcases s.content file with _ | old <;> rcases faults s.made with _ | message
  all_goals rfl

theorem readOnly_makeDirectory : (makeDirectory fail : Program ε φ τ Unit).ReadOnly := by
  intro faults s
  unfold makeDirectory
  rcases faults s.made with _ | message
  all_goals rfl

theorem ReadOnly.bind (h : p.ReadOnly) (hnext : ∀ a, (next a).ReadOnly) :
    (p >>= next).ReadOnly := by
  intro faults s
  rcases hp : p faults s with ⟨e | a, s'⟩
  · rw [bind_apply_error hp]
    exact h.content_eq hp
  · rw [bind_apply_ok hp, hnext a faults s']
    exact h.content_eq hp

theorem atomic_write [DecidableEq φ] (file : φ) (text : τ) :
    (write fail file text : Program ε φ τ Unit).Atomic := by
  intro faults s e s' h
  unfold write at h
  rcases hfault : faults s.made with _ | message
  · rw [hfault] at h
    cases h
  · rw [hfault] at h
    cases h
    rfl

/-- **Reading may come before.** -/
theorem Atomic.bind (h : p.ReadOnly) (hnext : ∀ a, (next a).Atomic) : (p >>= next).Atomic := by
  intro faults s e s'' hbind
  rcases bind_eq_error.1 hbind with hp | ⟨a, s', hp, hrest⟩
  · exact h.content_eq hp
  · exact (hnext a faults s' e s'' hrest).trans (h.content_eq hp)

/-- **An answer may come behind.** -/
theorem Atomic.map (h : p.Atomic) (f : α → β) :
    (p >>= fun a => (pure (f a) : Program ε φ τ β)).Atomic := by
  intro faults s e s'' hbind
  rcases bind_eq_error.1 hbind with hp | ⟨a, s', hp, hrest⟩
  · exact h faults s e s'' hp
  · cases hrest

theorem atomicAt_bind_iff (h : p.ReadOnly) :
    (p >>= next).AtomicAt faults s ↔
      ∀ a s', p faults s = (.ok a, s') → (next a).AtomicAt faults s' := by
  constructor
  · intro hall a s' hp e s'' hrest
    have hsame := hall e s'' (by rw [bind_apply_ok hp, hrest])
    rw [hsame, h.content_eq hp]
  · intro hall e s'' hbind
    rcases bind_eq_error.1 hbind with hp | ⟨a, s', hp, hrest⟩
    · exact h.content_eq hp
    · exact (hall a s' hp e s'' hrest).trans (h.content_eq hp)

theorem atomicAt_map_iff (f : α → β) :
    (p >>= fun a => (pure (f a) : Program ε φ τ β)).AtomicAt faults s ↔ p.AtomicAt faults s := by
  constructor
  · intro hall e s' hp
    exact hall e s' (bind_apply_error hp)
  · intro hall e s'' hbind
    rcases bind_eq_error.1 hbind with hp | ⟨a, s', hp, hrest⟩
    · exact hall e s'' hp
    · cases hrest

/-- **Of two parts that change nothing when they fail, the sequence does so exactly when the second
part is served or the first one has changed nothing.** -/
theorem Atomic.bind_iff (h : p.Atomic) (hnext : ∀ a, (next a).Atomic) :
    (p >>= next).AtomicAt faults s ↔
      ∀ a s', p faults s = (.ok a, s') →
        (∃ b s'', next a faults s' = (.ok b, s'')) ∨ s'.content = s.content := by
  constructor
  · intro hall a s' hp
    rcases hrest : next a faults s' with ⟨e | b, s''⟩
    · have := hall e s'' (by rw [bind_apply_ok hp, hrest])
      exact .inr ((hnext a faults s' e s'' hrest).symm.trans this)
    · exact .inl ⟨b, s'', rfl⟩
  · intro hall e s'' hbind
    rcases bind_eq_error.1 hbind with hp | ⟨a, s', hp, hrest⟩
    · exact h faults s e s'' hp
    · rcases hall a s' hp with ⟨b, s''', hok⟩ | hsame
      · rw [hrest] at hok
        cases hok
      · exact (hnext a faults s' e s'' hrest).trans hsame

/-- **What holds of the files after an atomic program**: it holds of what it makes of them, wherever
it can make something of them. -/
theorem Atomic.content_iff (h : p.Atomic) {P : (φ → Option τ) → Prop} (hsame : P s.content)
    (Makes : (φ → Option τ) → Prop)
    (hmakes : ∀ content, Makes content → ∃ a s', p faults s = (.ok a, s') ∧ s'.content = content)
    (hok : ∀ a s', p faults s = (.ok a, s') → Makes s'.content) :
    P (p faults s).2.content ↔ ∀ content, Makes content → P content := by
  constructor
  · intro hP content hcontent
    obtain ⟨a, s', hrun, rfl⟩ := hmakes content hcontent
    rwa [hrun] at hP
  · intro hall
    rcases hrun : p faults s with ⟨e | a, s'⟩
    · rw [h faults s e s' hrun]
      exact hsame
    · exact hall _ (hok a s' hrun)

end Closure

/-! ### Programs that write some files only -/

def ChangesOnly (allowed : φ → Prop) (p : Program ε φ τ α) : Prop :=
  ∀ faults s file, (p faults s).2.content file ≠ s.content file → allowed file

section Frame

variable {allowed : φ → Prop} {p : Program ε φ τ α} {next : α → Program ε φ τ β}

theorem ReadOnly.changesOnly (h : p.ReadOnly) : p.ChangesOnly allowed :=
  fun faults s file hchanged => absurd (congrFun (h faults s) file) hchanged

theorem changesOnly_write [DecidableEq φ] (fail : String → ε) {file : φ} (hfile : allowed file)
    (text : τ) : (write fail file text : Program ε φ τ Unit).ChangesOnly allowed := by
  intro faults s place hchanged
  by_cases hplace : place = file
  · exact hplace ▸ hfile
  · unfold write at hchanged
    rcases hfault : faults s.made with _ | message
    · rw [hfault] at hchanged
      exact absurd (Function.update_of_ne hplace _ _) hchanged
    · rw [hfault] at hchanged
      exact absurd rfl hchanged

theorem ChangesOnly.mono {allowed' : φ → Prop} (h : p.ChangesOnly allowed)
    (himp : ∀ file, allowed file → allowed' file) : p.ChangesOnly allowed' :=
  fun faults s file hchanged => himp file (h faults s file hchanged)

/-- **In a sequence, what comes second changes allowed files, by the answer of the first part.** -/
theorem ChangesOnly.bind_of_ok (h : p.ChangesOnly allowed)
    (hnext : ∀ faults s a s', p faults s = (.ok a, s') → (next a).ChangesOnly allowed) :
    (p >>= next).ChangesOnly allowed := by
  intro faults s file hchanged
  by_cases hfirst : (p faults s).2.content file = s.content file
  · rcases hp : p faults s with ⟨e | a, s'⟩
    · rw [bind_apply_error hp] at hchanged
      rw [hp] at hfirst
      exact absurd hfirst hchanged
    · rw [bind_apply_ok hp] at hchanged
      rw [hp] at hfirst
      exact hnext faults s a s' hp faults s' file (hfirst ▸ hchanged)
  · exact h faults s file hfirst

theorem ChangesOnly.bind (h : p.ChangesOnly allowed) (hnext : ∀ a, (next a).ChangesOnly allowed) :
    (p >>= next).ChangesOnly allowed :=
  h.bind_of_ok fun _ _ a _ _ => hnext a

theorem ChangesOnly.map (h : p.ChangesOnly allowed) (f : α → β) :
    (p >>= fun a => (pure (f a) : Program ε φ τ β)).ChangesOnly allowed :=
  h.bind fun _ => (readOnly_pure _).changesOnly

end Frame

/-! ### Programs without faults -/

/-- Without faults, the program answers this, and leaves the files alone. -/
def Yields (p : Program ε φ τ α) (content : φ → Option τ) (a : α) : Prop :=
  ∀ n, ∃ n', p (fun _ => none) ⟨content, n⟩ = (.ok a, ⟨content, n'⟩)

section Yields

variable {p : Program ε φ τ α} {next : α → Program ε φ τ β} {content : φ → Option τ}

theorem yields_pure (a : α) : (pure a : Program ε φ τ α).Yields content a := fun n => ⟨n, rfl⟩

theorem yields_isFile (file : φ) :
    (isFile file : Program ε φ τ Bool).Yields content (content file).isSome := fun n => ⟨n, rfl⟩

theorem yields_read (fail : String → ε) (file : φ) :
    (read fail file : Program ε φ τ (Option τ)).Yields content (content file) :=
  fun n => ⟨n + 1, read_eq_ok.2 ⟨fun _ => rfl, rfl, rfl⟩⟩

theorem Yields.bind {a : α} {b : β} (h : p.Yields content a)
    (hnext : (next a).Yields content b) : (p >>= next).Yields content b := by
  intro n
  obtain ⟨n', hp⟩ := h n
  obtain ⟨n'', hb⟩ := hnext n'
  exact ⟨n'', by rw [bind_apply_ok hp, hb]⟩

end Yields

/-! ### Lists of operations -/

/-- An operation that may fail: reading a file, or making a directory or writing. -/
inductive Operation (φ : Type) where
  | read (file : φ)
  | write

/-- None of the operations fails, the first of them being that of a number. -/
def Served (faults : Faults) (content : φ → Option τ) : ℕ → List (Operation φ) → Prop
  | _, [] => True
  | n, .read file :: operations =>
    ((content file).isSome = true → faults n = none) ∧ Served faults content (n + 1) operations
  | n, .write :: operations => faults n = none ∧ Served faults content (n + 1) operations

variable {content : φ → Option τ}

theorem served_of_none {n : ℕ} (operations : List (Operation φ)) :
    Served (fun _ => none) content n operations := by
  induction operations generalizing n with
  | nil => trivial
  | cons operation operations ih =>
    cases operation with
    | read file => exact ⟨fun _ => rfl, ih⟩
    | write => exact ⟨rfl, ih⟩

theorem served_congr {faults : Faults} {content' : φ → Option τ} {n : ℕ}
    {operations : List (Operation φ)}
    (h : ∀ file, .read file ∈ operations → (content' file).isSome = (content file).isSome) :
    Served faults content' n operations ↔ Served faults content n operations := by
  induction operations generalizing n with
  | nil => exact Iff.rfl
  | cons operation operations ih =>
    have htail := @ih (n + 1) fun file hfile => h file (List.mem_cons_of_mem _ hfile)
    cases operation with
    | read file =>
      have hhead := h file List.mem_cons_self
      rw [Served, Served, hhead, htail]
    | write => rw [Served, Served, htail]

theorem served_append {faults : Faults} {n : ℕ} {operations operations' : List (Operation φ)} :
    Served faults content n (operations ++ operations') ↔
      Served faults content n operations ∧
        Served faults content (n + operations.length) operations' := by
  induction operations generalizing n with
  | nil => simp [Served]
  | cons operation operations ih =>
    have hlength : n + (operation :: operations).length = n + 1 + operations.length := by
      rw [List.length_cons]
      omega
    rw [List.cons_append, hlength]
    cases operation with
    | read file => rw [Served, Served, ih, and_assoc]
    | write => rw [Served, Served, ih, and_assoc]

end Program

end Files

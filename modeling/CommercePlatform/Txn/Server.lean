/-
A database server running many transactions at once.

The isolation level is READ COMMITTED: what a session has written is seen by itself
only, in `writes` over the committed rows, until it commits.  Row locks and claimed
keys are held to the end of the session.  An access that needs a key another
session holds is not enabled, which is how waiting looks here; a session may be
rolled back at any moment, which covers errors, deadlock victims and lost
connections alike.

One step is one access, so every interleaving of statements is a run, and finer
ones besides: a statement such as `UPDATE` is a lock and a write.
-/
import Mathlib.Logic.Function.Basic
import CommercePlatform.Txn.Program

namespace Txn

/-- An open transaction. -/
structure Session {κ : Type} (ν : κ → Type) (ε α ι : Type) where
  /-- What it was opened for. -/
  job : ι
  /-- What is left of its body. -/
  rest : Tx ν ε α
  /-- The rows it has written and not committed. -/
  writes : Store ν
  /-- The keys it has read without taking a lock. -/
  reads : List κ
  /-- The keys it has tried to lock and found without a row. -/
  misses : List κ

/-- The committed rows, the open sessions, and who holds which key. -/
structure Server {κ : Type} (ν : κ → Type) (ε α ι : Type) where
  db : Store ν
  sessions : ℕ → Option (Session ν ε α ι)
  locks : κ → Option ℕ
  /-- The jobs committed so far, oldest first. -/
  history : List ι

/-- What may happen next. -/
inductive Act (ι : Type) where
  | begin (i : ℕ) (job : ι)
  | exec (i : ℕ)
  | commit (i : ℕ)
  | rollback (i : ℕ)

variable {κ : Type} [DecidableEq κ] {ν : κ → Type} {ε α ι : Type}

namespace Session

/-- A session at the start of its body. -/
def opened (prog : ι → Tx ν ε α) (job : ι) : Session ν ε α ι :=
  { job := job, rest := prog job, writes := ∅, reads := [], misses := [] }

/-- The rows a session sees: its own over the committed ones. -/
def view (σ : Session ν ε α ι) (db : Store ν) : Store ν := σ.writes ∪ db

/-- The keys whose rows, or whose absence, a session relies on without holding them. -/
def peeked (σ : Session ν ε α ι) : List κ := σ.reads ++ σ.misses

/--
The next access of a session, and the key it has to hold for it.  A row that is not
visible is not locked, and a claim on a key that has a row takes nothing.
-/
def advance (db : Store ν) (σ : Session ν ε α ι) : Option (Session ν ε α ι × Option κ) :=
  match σ.rest with
  | .pure _ => none
  | .throw _ => none
  | .read k next =>
      some ({ σ with rest := next ((σ.view db).lookup k), reads := k :: σ.reads }, none)
  | .lock k next =>
      match (σ.view db).lookup k with
      | none => some ({ σ with rest := next none, misses := k :: σ.misses }, none)
      | some row => some ({ σ with rest := next (some row) }, some k)
  | .claim k next =>
      match (σ.view db).lookup k with
      | some _ => some ({ σ with rest := next true }, none)
      | none => some ({ σ with rest := next false }, some k)
  | .put k row next => some ({ σ with rest := next, writes := σ.writes.insert k row }, some k)

/-- The cases of an access, each with the session after it and the key that it needs. -/
inductive Access (db : Store ν) (σ : Session ν ε α ι) : Session ν ε α ι → Option κ → Prop where
  | read {k : κ} {next : Option (ν k) → Tx ν ε α} (hrest : σ.rest = .read k next) :
      Access db σ { σ with rest := next ((σ.view db).lookup k), reads := k :: σ.reads } none
  | missed {k : κ} {next : Option (ν k) → Tx ν ε α} (hrest : σ.rest = .lock k next)
      (hrow : (σ.view db).lookup k = none) :
      Access db σ { σ with rest := next none, misses := k :: σ.misses } none
  | locked {k : κ} {next : Option (ν k) → Tx ν ε α} {row : ν k} (hrest : σ.rest = .lock k next)
      (hrow : (σ.view db).lookup k = some row) :
      Access db σ { σ with rest := next (some row) } (some k)
  | found {k : κ} {next : Bool → Tx ν ε α} {row : ν k} (hrest : σ.rest = .claim k next)
      (hrow : (σ.view db).lookup k = some row) : Access db σ { σ with rest := next true } none
  | claimed {k : κ} {next : Bool → Tx ν ε α} (hrest : σ.rest = .claim k next)
      (hrow : (σ.view db).lookup k = none) : Access db σ { σ with rest := next false } (some k)
  | put {k : κ} {row : ν k} {next : Tx ν ε α} (hrest : σ.rest = .put k row next) :
      Access db σ { σ with rest := next, writes := σ.writes.insert k row } (some k)

section

variable {db : Store ν} {σ σ' : Session ν ε α ι} {need : Option κ}

theorem advance_cases (h : σ.advance db = some (σ', need)) : σ.Access db σ' need := by
  unfold advance at h
  split at h
  · simp at h
  · simp at h
  · rename_i k next hrest
    obtain ⟨rfl, rfl⟩ := Prod.mk.inj (Option.some.inj h)
    exact .read hrest
  · rename_i k next hrest
    split at h
    · rename_i hrow
      obtain ⟨rfl, rfl⟩ := Prod.mk.inj (Option.some.inj h)
      exact .missed hrest hrow
    · rename_i row hrow
      obtain ⟨rfl, rfl⟩ := Prod.mk.inj (Option.some.inj h)
      exact .locked hrest hrow
  · rename_i k next hrest
    split at h
    · rename_i row hrow
      obtain ⟨rfl, rfl⟩ := Prod.mk.inj (Option.some.inj h)
      exact .found hrest hrow
    · rename_i hrow
      obtain ⟨rfl, rfl⟩ := Prod.mk.inj (Option.some.inj h)
      exact .claimed hrest hrow
  · rename_i k row next hrest
    obtain ⟨rfl, rfl⟩ := Prod.mk.inj (Option.some.inj h)
    exact .put hrest

theorem advance_job (h : σ.advance db = some (σ', need)) : σ'.job = σ.job := by
  cases advance_cases h with
  | read hrest => rfl
  | missed hrest hrow => rfl
  | locked hrest hrow => rfl
  | found hrest hrow => rfl
  | claimed hrest hrow => rfl
  | put hrest => rfl

/-- A written row was written before, or is the one the access needs the key for. -/
theorem advance_writes (h : σ.advance db = some (σ', need)) {k : κ} (hk : k ∈ σ'.writes) :
    k ∈ σ.writes ∨ need = some k := by
  cases advance_cases h with
  | read hrest => exact Or.inl hk
  | missed hrest hrow => exact Or.inl hk
  | locked hrest hrow => exact Or.inl hk
  | found hrest hrow => exact Or.inl hk
  | claimed hrest hrow => exact Or.inl hk
  | put hrest =>
      rcases Finmap.mem_insert.mp hk with rfl | hold
      · exact Or.inr rfl
      · exact Or.inl hold

/-- What a session sees it goes on seeing. -/
theorem advance_view (h : σ.advance db = some (σ', need)) {k : κ} (hk : k ∈ σ.view db) :
    k ∈ σ'.view db := by
  cases advance_cases h with
  | read hrest => exact hk
  | missed hrest hrow => exact hk
  | locked hrest hrow => exact hk
  | found hrest hrow => exact hk
  | claimed hrest hrow => exact hk
  | put hrest =>
      have hold : k ∈ σ.writes ∨ k ∈ db := Finmap.mem_union.mp hk
      exact Finmap.mem_union.mpr (hold.imp (fun hw => Finmap.mem_insert.mpr (Or.inr hw)) id)

theorem advance_peeked (h : σ.advance db = some (σ', need)) {k : κ} (hk : k ∈ σ.peeked) :
    k ∈ σ'.peeked := by
  have hmem : k ∈ σ.reads ∨ k ∈ σ.misses := List.mem_append.mp hk
  refine List.mem_append.mpr ?_
  cases advance_cases h with
  | read hrest => exact hmem.imp (List.mem_cons_of_mem _) id
  | missed hrest hrow => exact hmem.imp id (List.mem_cons_of_mem _)
  | locked hrest hrow => exact hmem
  | found hrest hrow => exact hmem
  | claimed hrest hrow => exact hmem
  | put hrest => exact hmem

/-- A missed key was missed before, or is not visible now. -/
theorem advance_misses (h : σ.advance db = some (σ', need)) {k : κ} (hk : k ∈ σ'.misses) :
    k ∈ σ.misses ∨ k ∉ σ.view db := by
  cases advance_cases h with
  | read hrest => exact Or.inl hk
  | missed hrest hrow =>
      rcases List.mem_cons.mp hk with heq | hold
      · exact Or.inr (heq ▸ Finmap.lookup_eq_none.mp hrow)
      · exact Or.inl hold
  | locked hrest hrow => exact Or.inl hk
  | found hrest hrow => exact Or.inl hk
  | claimed hrest hrow => exact Or.inl hk
  | put hrest => exact Or.inl hk

end

end Session

namespace Server

/-- A server with the given rows and nothing running. -/
def start (db : Store ν) : Server ν ε α ι :=
  { db := db, sessions := fun _ => none, locks := fun _ => none, history := [] }

/-- No other session holds the key. -/
def free (s : Server ν ε α ι) (i : ℕ) (k : κ) : Prop :=
  s.locks k = none ∨ s.locks k = some i

instance (s : Server ν ε α ι) (i : ℕ) (k : κ) : Decidable (s.free i k) :=
  inferInstanceAs (Decidable (_ ∨ _))

/-- The locks after session `i` is over. -/
def released (s : Server ν ε α ι) (i : ℕ) : κ → Option ℕ :=
  fun k => if s.locks k = some i then none else s.locks k

def begin (prog : ι → Tx ν ε α) (s : Server ν ε α ι) (i : ℕ) (job : ι) :
    Option (Server ν ε α ι) :=
  match s.sessions i with
  | some _ => none
  | none =>
      some { s with sessions := Function.update s.sessions i (some (.opened prog job)) }

/-- One access of session `i`, if no other session holds the key it needs. -/
def exec (s : Server ν ε α ι) (i : ℕ) : Option (Server ν ε α ι) :=
  match s.sessions i with
  | none => none
  | some σ =>
      match σ.advance s.db with
      | none => none
      | some (σ', none) => some { s with sessions := Function.update s.sessions i (some σ') }
      | some (σ', some k) =>
          if s.free i k then
            some { s with
              sessions := Function.update s.sessions i (some σ')
              locks := Function.update s.locks k (some i) }
          else none

/-- A session whose body is done makes its rows the committed ones. -/
def commit (s : Server ν ε α ι) (i : ℕ) : Option (Server ν ε α ι) :=
  match s.sessions i with
  | none => none
  | some σ =>
      match σ.rest with
      | .pure _ => some {
          db := σ.writes ∪ s.db
          sessions := Function.update s.sessions i none
          locks := s.released i
          history := s.history ++ [σ.job] }
      | _ => none

/-- A session is dropped, with all it has written. -/
def rollback (s : Server ν ε α ι) (i : ℕ) : Option (Server ν ε α ι) :=
  match s.sessions i with
  | none => none
  | some _ => some { s with
      sessions := Function.update s.sessions i none
      locks := s.released i }

def step (prog : ι → Tx ν ε α) (s : Server ν ε α ι) : Act ι → Option (Server ν ε α ι)
  | .begin i job => s.begin prog i job
  | .exec i => s.exec i
  | .commit i => s.commit i
  | .rollback i => s.rollback i

/-! ### What a step can do -/

section

omit [DecidableEq κ]

variable {sessions : ℕ → Option (Session ν ε α ι)} {i j : ℕ} {τ : Session ν ε α ι}

/-- A session after a step is the one that has made the step, or another one as it was. -/
theorem sessions_update {σ : Option (Session ν ε α ι)}
    (h : Function.update sessions i σ j = some τ) :
    j = i ∧ σ = some τ ∨ j ≠ i ∧ sessions j = some τ := by
  by_cases hj : j = i
  · subst hj
    rw [Function.update_self] at h
    exact Or.inl ⟨rfl, h⟩
  · rw [Function.update_of_ne hj] at h
    exact Or.inr ⟨hj, h⟩

theorem sessions_drop (h : Function.update sessions i none j = some τ) :
    j ≠ i ∧ sessions j = some τ := by
  rcases sessions_update h with ⟨-, hnone⟩ | hkept
  · simp at hnone
  · exact hkept

end

omit [DecidableEq κ] in
theorem begin_cases {prog : ι → Tx ν ε α} {s s' : Server ν ε α ι} {i : ℕ} {job : ι}
    (h : s.begin prog i job = some s') :
    s.sessions i = none ∧
      s' = { s with sessions := Function.update s.sessions i (some (.opened prog job)) } := by
  unfold begin at h
  split at h
  · simp at h
  · rename_i hnone
    exact ⟨hnone, (Option.some.inj h).symm⟩

theorem exec_cases {s s' : Server ν ε α ι} {i : ℕ} (h : s.exec i = some s') :
    ∃ σ σ' need, s.sessions i = some σ ∧ σ.advance s.db = some (σ', need) ∧
      (∀ k, need = some k → s.free i k) ∧ s'.db = s.db ∧ s'.history = s.history ∧
      s'.sessions = Function.update s.sessions i (some σ') ∧
      s'.locks = match need with
        | none => s.locks
        | some k => Function.update s.locks k (some i) := by
  unfold exec at h
  split at h
  · simp at h
  · rename_i σ hσ
    split at h
    · simp at h
    · rename_i σ' hadv
      obtain rfl := Option.some.inj h
      exact ⟨σ, σ', none, hσ, hadv, by simp, rfl, rfl, rfl, rfl⟩
    · rename_i σ' k hadv
      split at h
      · rename_i hfree
        obtain rfl := Option.some.inj h
        refine ⟨σ, σ', some k, hσ, hadv, ?_, rfl, rfl, rfl, rfl⟩
        rintro _ ⟨⟩
        exact hfree
      · simp at h

theorem commit_cases {s s' : Server ν ε α ι} {i : ℕ} (h : s.commit i = some s') :
    ∃ σ a, s.sessions i = some σ ∧ σ.rest = .pure a ∧
      s' = { db := σ.writes ∪ s.db
             sessions := Function.update s.sessions i none
             locks := s.released i
             history := s.history ++ [σ.job] } := by
  unfold commit at h
  split at h
  · simp at h
  · rename_i σ hσ
    split at h
    · rename_i a ha
      exact ⟨σ, a, hσ, ha, (Option.some.inj h).symm⟩
    · simp at h

omit [DecidableEq κ] in
theorem rollback_cases {s s' : Server ν ε α ι} {i : ℕ} (h : s.rollback i = some s') :
    ∃ σ, s.sessions i = some σ ∧
      s' = { s with
        sessions := Function.update s.sessions i none
        locks := s.released i } := by
  unfold rollback at h
  split at h
  · simp at h
  · rename_i σ hσ
    exact ⟨σ, hσ, (Option.some.inj h).symm⟩

omit [DecidableEq κ] in
/-- A rolled back session leaves the committed rows exactly as they were. -/
theorem rollback_db {s s' : Server ν ε α ι} {i : ℕ} (h : s.rollback i = some s') :
    s'.db = s.db := by
  obtain ⟨σ, -, rfl⟩ := rollback_cases h
  rfl

/-- Nothing but a commit changes the committed rows. -/
theorem step_db {prog : ι → Tx ν ε α} {s s' : Server ν ε α ι} {act : Act ι}
    (h : s.step prog act = some s') (hcommit : ∀ i, act ≠ .commit i) : s'.db = s.db := by
  cases act with
  | begin i job =>
      obtain ⟨-, rfl⟩ := begin_cases h
      rfl
  | exec i =>
      obtain ⟨_, _, _, -, -, -, hdb, -⟩ := exec_cases h
      exact hdb
  | commit i => exact absurd rfl (hcommit i)
  | rollback i => exact rollback_db h

omit [DecidableEq κ] in
theorem released_eq_some {s : Server ν ε α ι} {i j : ℕ} {k : κ} :
    s.released i k = some j ↔ s.locks k = some j ∧ j ≠ i := by
  unfold released
  split
  · rename_i h
    rw [h]
    constructor
    · intro hc
      simp at hc
    · rintro ⟨hij, hne⟩
      exact absurd (Option.some.inj hij).symm hne
  · rename_i h
    refine ⟨fun hj => ⟨hj, ?_⟩, fun hj => hj.1⟩
    rintro rfl
    exact h hj

/-- A key that another session holds stays held through an access. -/
theorem locks_of_exec {s s' : Server ν ε α ι} {i j : ℕ} {k : κ} (h : s.exec i = some s')
    (hk : s.locks k = some j) : s'.locks k = some j := by
  obtain ⟨σ, σ', need, -, -, hfree, -, -, -, hlocks⟩ := exec_cases h
  cases need with
  | none => rw [hlocks]; exact hk
  | some k' =>
      rw [hlocks]
      by_cases hkk : k = k'
      · subst hkk
        rcases hfree k rfl with hn | hi
        · rw [hn] at hk; simp at hk
        · simp [← hk, hi]
      · simp [Function.update_of_ne hkk, hk]

end Server

end Txn

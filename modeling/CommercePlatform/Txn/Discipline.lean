/-
Lock disciplines.

What a body may write, read and claim can often be read off the body itself, given
what it has claimed and locked on the way: an insert writes a key it has just
claimed, an update a row it has just locked.  A `Discipline` is such a rule, and
`Obeys` checks a body against it by recursion on the body, over every answer the
rows could give.

Checked once, it holds in every reachable state of a server, whatever the other
sessions do (`Disciplined`): it rests on the locks only, not on the replay of
`Txn/Replay.lean`.
-/
import CommercePlatform.Txn.Server

namespace Txn

/--
What a body has established: keys it found free and claimed, rows it found and
locked, and keys it has seen with a row, which they then have for good.
-/
structure Grip (κ : Type) where
  claimed : List κ
  locked : List κ
  seen : List κ

namespace Grip

variable {κ : Type}

/-- Nothing claimed, nothing locked, nothing seen. -/
def none : Grip κ := ⟨[], [], []⟩

def claim (g : Grip κ) (k : κ) : Grip κ := { g with claimed := k :: g.claimed }

def see (g : Grip κ) (k : κ) : Grip κ := { g with seen := k :: g.seen }

def lock (g : Grip κ) (k : κ) : Grip κ := { g.see k with locked := k :: g.locked }

/-- A grip that has at least the keys of another. -/
structure Le (g g' : Grip κ) : Prop where
  claimed : ∀ k ∈ g.claimed, k ∈ g'.claimed
  locked : ∀ k ∈ g.locked, k ∈ g'.locked
  seen : ∀ k ∈ g.seen, k ∈ g'.seen

theorem Le.refl (g : Grip κ) : g.Le g := ⟨fun _ h => h, fun _ h => h, fun _ h => h⟩

theorem Le.trans {g g' g'' : Grip κ} (h : g.Le g') (h' : g'.Le g'') : g.Le g'' :=
  ⟨fun k hk => h'.claimed k (h.claimed k hk), fun k hk => h'.locked k (h.locked k hk),
    fun k hk => h'.seen k (h.seen k hk)⟩

theorem le_claim (g : Grip κ) (k : κ) : g.Le (g.claim k) :=
  ⟨fun _ h => List.mem_cons_of_mem _ h, fun _ h => h, fun _ h => h⟩

theorem le_see (g : Grip κ) (k : κ) : g.Le (g.see k) :=
  ⟨fun _ h => h, fun _ h => h, fun _ h => List.mem_cons_of_mem _ h⟩

theorem le_lock (g : Grip κ) (k : κ) : g.Le (g.lock k) :=
  ⟨fun _ h => h, fun _ h => List.mem_cons_of_mem _ h, fun _ h => List.mem_cons_of_mem _ h⟩

/-- The key is held, one way or the other. -/
def Holds (g : Grip κ) (k : κ) : Prop := k ∈ g.claimed ∨ k ∈ g.locked

theorem Le.holds {g g' : Grip κ} (h : g.Le g') {k : κ} (hk : g.Holds k) : g'.Holds k :=
  hk.imp (h.claimed k) (h.locked k)

end Grip

/-- A rule for what a body may do.  Holding more never forbids anything. -/
structure Discipline {κ : Type} (ν : κ → Type) where
  mayPut : Grip κ → (k : κ) → ν k → Prop
  mayRead : Grip κ → κ → Prop
  mayMiss : Grip κ → κ → Prop
  mayClaim : κ → Prop
  put_mono : ∀ {g g' : Grip κ} {k : κ} {row : ν k}, g.Le g' → mayPut g k row → mayPut g' k row
  read_mono : ∀ {g g' : Grip κ} {k : κ}, g.Le g' → mayRead g k → mayRead g' k
  miss_mono : ∀ {g g' : Grip κ} {k : κ}, g.Le g' → mayMiss g k → mayMiss g' k

variable {κ : Type} {ν : κ → Type} {ε α ι : Type}

/--
The body keeps to the rule, whatever the rows are.  It only ever writes keys it
holds, and it cannot miss a key it has seen.
-/
def Tx.Obeys (D : Discipline ν) : Grip κ → Tx ν ε α → Prop
  | _, .pure _ => True
  | _, .throw _ => True
  | g, .read k next =>
      D.mayRead g k ∧ (next none).Obeys D g ∧ ∀ row, (next (some row)).Obeys D (g.see k)
  | g, .lock k next =>
      (k ∈ g.seen ∨ (D.mayMiss g k ∧ (next none).Obeys D g)) ∧
        ∀ row, (next (some row)).Obeys D (g.lock k)
  | g, .claim k next =>
      D.mayClaim k ∧ (next true).Obeys D (g.see k) ∧ (next false).Obeys D (g.claim k)
  | g, .put k row next => (g.Holds k ∧ D.mayPut g k row) ∧ next.Obeys D g

/-! ### Checking a body -/

namespace Tx

variable {D : Discipline ν} {g : Grip κ} {β : Type}

@[simp] theorem obeys_pure (a : α) : (Tx.pure a : Tx ν ε α).Obeys D g := trivial

@[simp] theorem obeys_throw (e : ε) : (Tx.throw e : Tx ν ε α).Obeys D g := trivial

@[simp] theorem obeys_read {k : κ} {next : Option (ν k) → Tx ν ε α} :
    (Tx.read k next).Obeys D g ↔
      D.mayRead g k ∧ (next none).Obeys D g ∧ ∀ row, (next (some row)).Obeys D (g.see k) :=
  Iff.rfl

@[simp] theorem obeys_lock {k : κ} {next : Option (ν k) → Tx ν ε α} :
    (Tx.lock k next).Obeys D g ↔
      (k ∈ g.seen ∨ (D.mayMiss g k ∧ (next none).Obeys D g)) ∧
        ∀ row, (next (some row)).Obeys D (g.lock k) := Iff.rfl

@[simp] theorem obeys_claim {k : κ} {next : Bool → Tx ν ε α} :
    (Tx.claim k next).Obeys D g ↔
      D.mayClaim k ∧ (next true).Obeys D (g.see k) ∧ (next false).Obeys D (g.claim k) := Iff.rfl

@[simp] theorem obeys_put {k : κ} {row : ν k} {next : Tx ν ε α} :
    (Tx.put k row next).Obeys D g ↔ (g.Holds k ∧ D.mayPut g k row) ∧ next.Obeys D g := Iff.rfl

/-- A computation that raises ends the body. -/
@[simp] theorem obeys_ofExcept_bind {x : Except ε β} {f : β → Tx ν ε α} :
    ((ofExcept x).bind f).Obeys D g ↔ ∀ a, x = .ok a → (f a).Obeys D g := by
  cases x with
  | ok a => simp
  | error e => simp

/-- Two bodies in sequence: the second holds at least what the first started with. -/
theorem Obeys.bind {p : Tx ν ε β} {f : β → Tx ν ε α} (h : p.Obeys D g)
    (hf : ∀ g', g.Le g' → ∀ b, (f b).Obeys D g') : (p.bind f).Obeys D g := by
  induction p generalizing g with
  | pure b => exact hf g (.refl g) b
  | throw e => trivial
  | read k next ih =>
      refine ⟨h.1, ih none h.2.1 hf, fun row => ih (some row) (h.2.2 row) ?_⟩
      exact fun g' hle => hf g' ((g.le_see k).trans hle)
  | lock k next ih =>
      refine ⟨h.1.imp id fun hm => ⟨hm.1, ih none hm.2 hf⟩, fun row => ih (some row) (h.2 row) ?_⟩
      exact fun g' hle => hf g' ((g.le_lock k).trans hle)
  | claim k next ih =>
      refine ⟨h.1, ih true h.2.1 ?_, ih false h.2.2 ?_⟩
      · exact fun g' hle => hf g' ((g.le_see k).trans hle)
      · exact fun g' hle => hf g' ((g.le_claim k).trans hle)
  | put k row next ih => exact ⟨h.1, ih h.2 hf⟩

theorem Obeys.insertRow {k : κ} {row : ν k} {e : ε} (hclaim : D.mayClaim k)
    (hput : D.mayPut (g.claim k) k row) : (insertRow k row e).Obeys D g := by
  have hheld : (g.claim k).Holds k := Or.inl (by simp [Grip.claim])
  exact ⟨hclaim, trivial, ⟨hheld, hput⟩, trivial⟩

theorem Obeys.updateRow {k : κ} {set : ν k → Except ε (ν k)}
    (hmiss : k ∈ g.seen ∨ D.mayMiss g k) (hput : ∀ row, D.mayPut (g.lock k) k row) :
    (updateRow k set : Tx ν ε Unit).Obeys D g := by
  have hheld : (g.lock k).Holds k := Or.inr (by simp [Grip.lock])
  refine ⟨hmiss.imp id fun hm => ⟨hm, trivial⟩, fun row => ?_⟩
  exact obeys_ofExcept_bind.mpr fun row' _ => ⟨⟨hheld, hput row'⟩, trivial⟩

theorem Obeys.upsertRow {k : κ} {row : ν k} {set : ν k → ν k} {check : Tx ν ε Unit}
    (hclaim : D.mayClaim k) (hinsert : D.mayPut (g.claim k) k row)
    (hupdate : ∀ row, D.mayPut ((g.see k).lock k) k row) (hcheck : check.Obeys D (g.claim k)) :
    (upsertRow k row set check).Obeys D g := by
  have hheld : (g.claim k).Holds k := Or.inl (by simp [Grip.claim])
  have hseen : k ∈ (g.see k).seen := by simp [Grip.see]
  exact ⟨hclaim, Obeys.updateRow (Or.inl hseen) hupdate, ⟨hheld, hinsert⟩, hcheck⟩

/-- A rule that allows no less is kept as well. -/
theorem Obeys.mono {D' : Discipline ν} {p : Tx ν ε α} (h : p.Obeys D g)
    (hput : ∀ g k row, D.mayPut g k row → D'.mayPut g k row)
    (hread : ∀ g k, D.mayRead g k → D'.mayRead g k)
    (hmiss : ∀ g k, D.mayMiss g k → D'.mayMiss g k)
    (hclaim : ∀ k, D.mayClaim k → D'.mayClaim k) : p.Obeys D' g := by
  induction p generalizing g with
  | pure a => trivial
  | throw e => trivial
  | read k next ih =>
      exact ⟨hread g k h.1, ih none h.2.1, fun row => ih (some row) (h.2.2 row)⟩
  | lock k next ih =>
      exact ⟨h.1.imp id fun hm => ⟨hmiss g k hm.1, ih none hm.2⟩,
        fun row => ih (some row) (h.2 row)⟩
  | claim k next ih => exact ⟨hclaim k h.1, ih true h.2.1, ih false h.2.2⟩
  | put k row next ih => exact ⟨⟨h.1.1, hput g k row h.1.2⟩, ih h.2⟩

end Tx

variable [DecidableEq κ]

/-- What holds of one open session that keeps to the rule `D`. -/
structure Session.Disciplined (D : Discipline ν) (s : Server ν ε α ι) (i : ℕ)
    (σ : Session ν ε α ι) (g : Grip κ) : Prop where
  obeys : σ.rest.Obeys D g
  /-- A claimed key is held, and still has no committed row. -/
  claimed : ∀ k ∈ g.claimed, s.locks k = some i ∧ k ∉ s.db ∧ D.mayClaim k
  /-- A locked row is held, and was there before or was inserted by the session itself. -/
  locked : ∀ k ∈ g.locked, s.locks k = some i ∧ (k ∈ s.db ∨ k ∈ g.claimed)
  seen : ∀ k ∈ g.seen, k ∈ σ.view s.db
  writes : ∀ k row, σ.writes.lookup k = some row → g.Holds k ∧ D.mayPut g k row
  reads : ∀ k ∈ σ.reads, D.mayRead g k
  misses : ∀ k ∈ σ.misses, D.mayMiss g k

/-- Every open session keeps to the rule of its job. -/
def Server.Disciplined (D : ι → Discipline ν) (s : Server ν ε α ι) : Prop :=
  ∀ i σ, s.sessions i = some σ → ∃ g, σ.Disciplined (D σ.job) s i g

/-! ### One access keeps the rule -/

theorem Session.obeys_advance {D : Discipline ν} {db : Store ν} {σ σ' : Session ν ε α ι}
    {need : Option κ} {g : Grip κ} (hobey : σ.rest.Obeys D g) (hseen : ∀ k ∈ g.seen, k ∈ σ.view db)
    (hadv : σ.advance db = some (σ', need)) :
    ∃ g', g.Le g' ∧ σ'.rest.Obeys D g' ∧
      (∀ k ∈ g'.claimed, k ∈ g.claimed ∨ (need = some k ∧ k ∉ σ.view db ∧ D.mayClaim k)) ∧
      (∀ k ∈ g'.locked, k ∈ g.locked ∨ (need = some k ∧ k ∈ σ.view db)) ∧
      (∀ k ∈ g'.seen, k ∈ σ.view db) ∧
      (∀ k row, σ'.writes.lookup k = some row →
        σ.writes.lookup k = some row ∨ (g'.Holds k ∧ D.mayPut g' k row)) ∧
      (∀ k ∈ σ'.reads, k ∈ σ.reads ∨ D.mayRead g' k) ∧
      (∀ k ∈ σ'.misses, k ∈ σ.misses ∨ (D.mayMiss g' k ∧ k ∉ σ.view db)) := by
  have hsee : ∀ {k row}, (σ.view db).lookup k = some row → ∀ k' ∈ (g.see k).seen, k' ∈ σ.view db := by
    intro k row hrow k' hk'
    rcases List.mem_cons.mp hk' with rfl | hk'
    · exact Finmap.mem_iff.mpr ⟨row, hrow⟩
    · exact hseen k' hk'
  cases advance_cases hadv with
  | @read k next hrest =>
      rw [hrest] at hobey
      obtain ⟨hread, hmissing, hfound⟩ := hobey
      cases hrow : (σ.view db).lookup k with
      | none =>
          refine ⟨g, .refl g, hmissing, fun _ => Or.inl, fun _ => Or.inl, hseen,
            fun _ _ => Or.inl, ?_, fun _ => Or.inl⟩
          intro k' hk'
          rcases List.mem_cons.mp hk' with rfl | hk'
          · exact Or.inr hread
          · exact Or.inl hk'
      | some row =>
          refine ⟨g.see k, g.le_see k, hfound row, fun _ => Or.inl, fun _ => Or.inl, hsee hrow,
            fun _ _ => Or.inl, ?_, fun _ => Or.inl⟩
          intro k' hk'
          rcases List.mem_cons.mp hk' with rfl | hk'
          · exact Or.inr (D.read_mono (g.le_see _) hread)
          · exact Or.inl hk'
  | @missed k next hrest hrow =>
      rw [hrest] at hobey
      have habs : k ∉ σ.view db := Finmap.lookup_eq_none.mp hrow
      rcases hobey.1 with hk | ⟨hmiss, hmissing⟩
      · exact absurd (hseen k hk) habs
      · refine ⟨g, .refl g, hmissing, fun _ => Or.inl, fun _ => Or.inl, hseen,
          fun _ _ => Or.inl, fun _ => Or.inl, ?_⟩
        intro k' hk'
        rcases List.mem_cons.mp hk' with rfl | hk'
        · exact Or.inr ⟨hmiss, habs⟩
        · exact Or.inl hk'
  | @locked k next row hrest hrow =>
      rw [hrest] at hobey
      refine ⟨g.lock k, g.le_lock k, hobey.2 row, fun _ => Or.inl, ?_, hsee hrow,
        fun _ _ => Or.inl, fun _ => Or.inl, fun _ => Or.inl⟩
      intro k' hk'
      rcases List.mem_cons.mp hk' with rfl | hk'
      · exact Or.inr ⟨rfl, Finmap.mem_iff.mpr ⟨row, hrow⟩⟩
      · exact Or.inl hk'
  | @found k next row hrest hrow =>
      rw [hrest] at hobey
      exact ⟨g.see k, g.le_see k, hobey.2.1, fun _ => Or.inl, fun _ => Or.inl, hsee hrow,
        fun _ _ => Or.inl, fun _ => Or.inl, fun _ => Or.inl⟩
  | @claimed k next hrest hrow =>
      rw [hrest] at hobey
      refine ⟨g.claim k, g.le_claim k, hobey.2.2, ?_, fun _ => Or.inl, hseen, fun _ _ => Or.inl,
        fun _ => Or.inl, fun _ => Or.inl⟩
      intro k' hk'
      rcases List.mem_cons.mp hk' with rfl | hk'
      · exact Or.inr ⟨rfl, Finmap.lookup_eq_none.mp hrow, hobey.1⟩
      · exact Or.inl hk'
  | @put k row next hrest =>
      rw [hrest] at hobey
      refine ⟨g, .refl g, hobey.2, fun _ => Or.inl, fun _ => Or.inl, hseen, ?_, fun _ => Or.inl,
        fun _ => Or.inl⟩
      intro k' row' hrow'
      by_cases hk : k' = k
      · subst hk
        have : row = row' := by simpa using hrow'
        exact Or.inr (this ▸ hobey.1)
      · exact Or.inl (by simpa [Finmap.lookup_insert_of_ne _ hk] using hrow')

theorem Session.Disciplined.advance {D : Discipline ν} {s s' : Server ν ε α ι} {i : ℕ}
    {σ σ' : Session ν ε α ι} {need : Option κ} {g : Grip κ} (h : σ.Disciplined D s i g)
    (hadv : σ.advance s.db = some (σ', need)) (hdb : s'.db = s.db)
    (hkeep : ∀ k, s.locks k = some i → s'.locks k = some i)
    (hneed : ∀ k, need = some k → s'.locks k = some i) : ∃ g', σ'.Disciplined D s' i g' := by
  obtain ⟨g', hle, hobey, hclaimed, hlocked, hseen, hwrites, hreads, hmisses⟩ :=
    obeys_advance h.obeys h.seen hadv
  refine ⟨g', hobey, ?_, ?_, ?_, ?_, ?_, ?_⟩
  · intro k hk
    rw [hdb]
    rcases hclaimed k hk with hold | ⟨hn, hview, hmay⟩
    · exact ⟨hkeep k (h.claimed k hold).1, (h.claimed k hold).2⟩
    · exact ⟨hneed k hn, fun hc => hview (Finmap.mem_union.mpr (Or.inr hc)), hmay⟩
  · intro k hk
    rw [hdb]
    rcases hlocked k hk with hold | ⟨hn, hview⟩
    · exact ⟨hkeep k (h.locked k hold).1, (h.locked k hold).2.imp id (hle.claimed k)⟩
    · refine ⟨hneed k hn, ?_⟩
      rcases Finmap.mem_union.mp hview with hw | hd
      · obtain ⟨row, hrow⟩ := Finmap.mem_iff.mp hw
        rcases (h.writes k row hrow).1 with hc | hl
        · exact Or.inr (hle.claimed k hc)
        · exact (h.locked k hl).2.imp id (hle.claimed k)
      · exact Or.inl hd
  · rw [hdb]
    exact fun k hk => Session.advance_view hadv (hseen k hk)
  · intro k row hrow
    rcases hwrites k row hrow with hold | hnew
    · exact ⟨hle.holds (h.writes k row hold).1, D.put_mono hle (h.writes k row hold).2⟩
    · exact hnew
  · exact fun k hk => (hreads k hk).elim (fun hold => D.read_mono hle (h.reads k hold)) id
  · exact fun k hk => (hmisses k hk).elim (fun hold => D.miss_mono hle (h.misses k hold)) (·.1)

/-! ### So does every step of the server -/

/-- What others do leaves a session disciplined: its locks stay, and no row appears under them. -/
theorem Session.Disciplined.frame {D : Discipline ν} {s s' : Server ν ε α ι} {i : ℕ}
    {σ : Session ν ε α ι} {g : Grip κ} (h : σ.Disciplined D s i g)
    (hlocks : ∀ k, s.locks k = some i → s'.locks k = some i) (hmono : ∀ k ∈ s.db, k ∈ s'.db)
    (hnew : ∀ k ∈ s'.db, k ∈ s.db ∨ s.locks k ≠ some i) : σ.Disciplined D s' i g := by
  refine ⟨h.obeys, fun k hk => ?_, fun k hk => ?_, fun k hk => ?_, h.writes, h.reads, h.misses⟩
  · obtain ⟨hl, hd, hmay⟩ := h.claimed k hk
    refine ⟨hlocks k hl, fun hc => ?_, hmay⟩
    rcases hnew k hc with hd' | hne
    · exact hd hd'
    · exact hne hl
  · obtain ⟨hl, hd⟩ := h.locked k hk
    exact ⟨hlocks k hl, hd.imp (hmono k) id⟩
  · exact Finmap.mem_union.mpr ((Finmap.mem_union.mp (h.seen k hk)).imp id (hmono k))

/-- A disciplined session holds every key it has written. -/
theorem Session.Disciplined.held {D : Discipline ν} {s : Server ν ε α ι} {i : ℕ}
    {σ : Session ν ε α ι} {g : Grip κ} (h : σ.Disciplined D s i g) {k : κ} (hk : k ∈ σ.writes) :
    s.locks k = some i := by
  obtain ⟨row, hrow⟩ := Finmap.mem_iff.mp hk
  rcases (h.writes k row hrow).1 with hc | hl
  · exact (h.claimed k hc).1
  · exact (h.locked k hl).1

/-- A row written under a key that may not be claimed was committed before. -/
theorem Session.Disciplined.mem_of_write {D : Discipline ν} {s : Server ν ε α ι} {i : ℕ}
    {σ : Session ν ε α ι} {g : Grip κ} (h : σ.Disciplined D s i g) {k : κ} (hk : k ∈ σ.writes)
    (hfixed : ¬ D.mayClaim k) : k ∈ s.db := by
  obtain ⟨row, hrow⟩ := Finmap.mem_iff.mp hk
  rcases (h.writes k row hrow).1 with hc | hl
  · exact absurd (h.claimed k hc).2.2 hfixed
  · rcases (h.locked k hl).2 with hd | hc
    · exact hd
    · exact absurd (h.claimed k hc).2.2 hfixed

namespace Server

variable {D : ι → Discipline ν} {prog : ι → Tx ν ε α} {s s' : Server ν ε α ι} {i : ℕ}

theorem disciplined_start (db : Store ν) : (start db : Server ν ε α ι).Disciplined D := by
  intro i σ h
  simp [start] at h

theorem Disciplined.begin (h : s.Disciplined D) {job : ι} (hobey : (prog job).Obeys (D job) .none)
    (hs : s.begin prog i job = some s') : s'.Disciplined D := by
  obtain ⟨-, rfl⟩ := begin_cases hs
  intro j τ hτ
  rcases sessions_update hτ with ⟨rfl, hopen⟩ | ⟨-, hτ⟩
  · obtain rfl := Option.some.inj hopen
    exact ⟨.none, hobey, by simp [Grip.none], by simp [Grip.none], by simp [Grip.none],
      by simp [Session.opened], by simp [Session.opened], by simp [Session.opened]⟩
  · obtain ⟨g, hg⟩ := h j τ hτ
    exact ⟨g, hg.frame (fun _ => id) (fun _ => id) fun _ => Or.inl⟩

theorem Disciplined.exec (h : s.Disciplined D) (hs : s.exec i = some s') : s'.Disciplined D := by
  have hkeep : ∀ {j k}, s.locks k = some j → s'.locks k = some j := locks_of_exec hs
  obtain ⟨σ, σ', need, hσ, hadv, -, hdb, -, hsess, hlocks⟩ := exec_cases hs
  intro j τ hτ
  rw [hsess] at hτ
  rcases sessions_update hτ with ⟨rfl, hnext⟩ | ⟨-, hτ⟩
  · obtain rfl := Option.some.inj hnext
    obtain ⟨g, hg⟩ := h j σ hσ
    rw [Session.advance_job hadv]
    refine hg.advance hadv hdb (fun k => hkeep) fun k hk => ?_
    subst hk
    rw [hlocks]
    simp
  · obtain ⟨g, hg⟩ := h j τ hτ
    exact ⟨g, hg.frame (fun k => hkeep) (by rw [hdb]; exact fun _ => id)
      (by rw [hdb]; exact fun _ => Or.inl)⟩

theorem Disciplined.commit (h : s.Disciplined D) (hs : s.commit i = some s') :
    s'.Disciplined D := by
  obtain ⟨σ, a, hσ, -, rfl⟩ := commit_cases hs
  obtain ⟨gσ, hgσ⟩ := h i σ hσ
  intro j τ hτ
  obtain ⟨hj, hτ⟩ := sessions_drop hτ
  obtain ⟨g, hg⟩ := h j τ hτ
  refine ⟨g, hg.frame (fun k hk => released_eq_some.mpr ⟨hk, hj⟩) ?_ ?_⟩
  · exact fun k hk => Finmap.mem_union.mpr (Or.inr hk)
  · intro k hk
    rcases Finmap.mem_union.mp hk with hw | hd
    · refine Or.inr ?_
      rw [hgσ.held hw]
      exact fun hc => hj (Option.some.inj hc).symm
    · exact Or.inl hd

theorem Disciplined.rollback (h : s.Disciplined D) (hs : s.rollback i = some s') :
    s'.Disciplined D := by
  obtain ⟨σ, -, rfl⟩ := rollback_cases hs
  intro j τ hτ
  obtain ⟨hj, hτ⟩ := sessions_drop hτ
  obtain ⟨g, hg⟩ := h j τ hτ
  exact ⟨g, hg.frame (fun k hk => released_eq_some.mpr ⟨hk, hj⟩) (fun _ => id) fun _ => Or.inl⟩

/-- **Bodies that obey their rule keep it in every run.** -/
theorem Disciplined.step (h : s.Disciplined D) (hobey : ∀ job, (prog job).Obeys (D job) .none)
    {act : Act ι} (hs : s.step prog act = some s') : s'.Disciplined D := by
  cases act with
  | begin i job => exact h.begin (hobey job) hs
  | exec i => exact h.exec hs
  | commit i => exact h.commit hs
  | rollback i => exact h.rollback hs

/-- So does a statement outside any transaction that changes a committed row. -/
theorem Disciplined.update (h : s.Disciplined D) {k : κ} {row : ν k} (hk : k ∈ s.db) :
    ({ s with db := s.db.insert k row } : Server ν ε α ι).Disciplined D := by
  intro j τ hτ
  obtain ⟨g, hg⟩ := h j τ hτ
  refine ⟨g, hg.frame (fun _ => id) ?_ ?_⟩
  · exact fun k' hk' => Finmap.mem_insert.mpr (Or.inr hk')
  · intro k' hk'
    rcases Finmap.mem_insert.mp hk' with heq | hd
    · exact Or.inl (heq ▸ hk)
    · exact Or.inl hd

/-! ### Keys that are never claimed

No row is inserted under them, so one that was missing once is missing for good.
-/

/-- Every missed key of the given kind is still without a row. -/
def MissesAbsent (fixed : κ → Prop) (s : Server ν ε α ι) : Prop :=
  ∀ i σ, s.sessions i = some σ → ∀ k ∈ σ.misses, fixed k → k ∉ s.db

omit [DecidableEq κ] in
theorem missesAbsent_start {fixed : κ → Prop} (db : Store ν) :
    (start db : Server ν ε α ι).MissesAbsent fixed := by
  intro i σ h
  simp [start] at h

theorem MissesAbsent.step {fixed : κ → Prop} (h : s.MissesAbsent fixed) (hd : s.Disciplined D)
    (hfixed : ∀ job k, fixed k → ¬ (D job).mayClaim k)
    {act : Act ι} (hs : s.step prog act = some s') : s'.MissesAbsent fixed := by
  intro j τ hτ k hk hfix
  cases act with
  | begin i job =>
      obtain ⟨-, rfl⟩ := begin_cases hs
      rcases sessions_update hτ with ⟨rfl, hopen⟩ | ⟨-, hτ⟩
      · obtain rfl := Option.some.inj hopen
        simp [Session.opened] at hk
      · exact h j τ hτ k hk hfix
  | exec i =>
      obtain ⟨σ, σ', need, hσ, hadv, -, hdb, -, hsess, -⟩ := exec_cases hs
      rw [hsess] at hτ
      rw [hdb]
      rcases sessions_update hτ with ⟨rfl, hnext⟩ | ⟨-, hτ⟩
      · obtain rfl := Option.some.inj hnext
        rcases Session.advance_misses hadv hk with hold | hview
        · exact h j σ hσ k hold hfix
        · exact fun hc => hview (Finmap.mem_union.mpr (Or.inr hc))
      · exact h j τ hτ k hk hfix
  | commit i =>
      obtain ⟨σ, a, hσ, -, rfl⟩ := commit_cases hs
      obtain ⟨g, hg⟩ := hd i σ hσ
      have habs := h j τ (sessions_drop hτ).2 k hk hfix
      intro hc
      rcases Finmap.mem_union.mp hc with hw | hd'
      · exact habs (hg.mem_of_write hw (hfixed _ k hfix))
      · exact habs hd'
  | rollback i =>
      obtain ⟨σ, -, rfl⟩ := rollback_cases hs
      exact h j τ (sessions_drop hτ).2 k hk hfix

/-! ### Keys that are always there -/

/-- No session has found a row missing that it tried to lock. -/
def MissesNothing (s : Server ν ε α ι) : Prop :=
  ∀ i σ, s.sessions i = some σ → σ.misses = []

/-- A session whose rows are all there misses none. -/
theorem MissesNothing.step (h : s.MissesNothing) (hd : s'.Disciplined D)
    (hpresent : ∀ i σ, s'.sessions i = some σ → ∀ g k, (D σ.job).mayMiss g k → k ∈ s.db)
    {act : Act ι} (hs : s.step prog act = some s') : s'.MissesNothing := by
  intro j τ hτ
  cases act with
  | begin i job =>
      obtain ⟨-, rfl⟩ := begin_cases hs
      rcases sessions_update hτ with ⟨rfl, hopen⟩ | ⟨-, hτ⟩
      · obtain rfl := Option.some.inj hopen
        rfl
      · exact h j τ hτ
  | exec i =>
      obtain ⟨g, hg⟩ := hd j τ hτ
      have hpresent' := hpresent j τ hτ g
      obtain ⟨σ, σ', need, hσ, hadv, -, -, -, hsess, -⟩ := exec_cases hs
      rw [hsess] at hτ
      rcases sessions_update hτ with ⟨rfl, hnext⟩ | ⟨-, hτ⟩
      · obtain rfl := Option.some.inj hnext
        refine List.eq_nil_iff_forall_not_mem.mpr fun k hk => ?_
        rcases Session.advance_misses hadv hk with hold | hview
        · rw [h j σ hσ] at hold
          simp at hold
        · exact hview (Finmap.mem_union.mpr (Or.inr (hpresent' k (hg.misses k hk))))
      · exact h j τ hτ
  | commit i =>
      obtain ⟨_, _, -, -, rfl⟩ := commit_cases hs
      exact h j τ (sessions_drop hτ).2
  | rollback i =>
      obtain ⟨_, -, rfl⟩ := rollback_cases hs
      exact h j τ (sessions_drop hτ).2

end Server

end Txn

/-
At-least-once delivery, exactly-once effect.

A guarded job claims a key of its own first and does nothing if the key is taken.
However often it is attempted, and however many of its attempts fail and are rolled
back, only its first commit has an effect: the committed rows are those of a run that
applies each job once, in the order of the first commits.

Two attempts may be open at once when they are for the same key; then only one of
them gets past the claim.
-/
import CommercePlatform.Txn.Replay
import CommercePlatform.Txn.Discipline

namespace Txn

variable {κ : Type} [DecidableEq κ] {ν : κ → Type} {ε α ι : Type}

/-- The committed rows of a server after any run in which jobs begin only where `allowed`. -/
inductive Server.Reach (prog : ι → Tx ν ε α) (allowed : Server ν ε α ι → ι → Prop)
    (s₀ : Server ν ε α ι) : Server ν ε α ι → Prop where
  | start : Reach prog allowed s₀ s₀
  | step {s s' : Server ν ε α ι} {act : Act ι} (h : Reach prog allowed s₀ s)
      (hbegin : ∀ i job, act = .begin i job → allowed s job) (hs : s.step prog act = some s') :
      Reach prog allowed s₀ s'

/-- The server after one step after the other, if each is enabled. -/
def Server.run (prog : ι → Tx ν ε α) : List (Act ι) → Server ν ε α ι → Option (Server ν ε α ι)
  | [], s => some s
  | act :: rest, s => (s.step prog act).bind (run prog rest)

/-- A run of jobs that are allowed at any time. -/
theorem Server.Reach.of_run {prog : ι → Tx ν ε α} {allowed : Server ν ε α ι → ι → Prop}
    {s₀ s s' : Server ν ε α ι} {acts : List (Act ι)} (h : Reach prog allowed s₀ s)
    (hbegin : ∀ i job, .begin i job ∈ acts → ∀ s, allowed s job)
    (hrun : Server.run prog acts s = some s') : Reach prog allowed s₀ s' := by
  induction acts generalizing s with
  | nil =>
      obtain rfl := Option.some.inj hrun
      exact h
  | cons act rest ih =>
      obtain ⟨s₁, hstep, hrest⟩ := Option.bind_eq_some_iff.mp hrun
      have hfirst : ∀ i job, act = .begin i job → allowed s job := by
        rintro i job rfl
        exact hbegin i job (List.mem_cons_self ..) s
      exact ih (h.step hfirst hstep) (fun i job hmem => hbegin i job (List.mem_cons_of_mem _ hmem))
        hrest

/-- The sessions work on the jobs that were begun. -/
theorem Server.step_jobs {prog : ι → Tx ν ε α} {P : ι → Prop} {s s' : Server ν ε α ι} {act : Act ι}
    (hopen : ∀ i σ, s.sessions i = some σ → P σ.job)
    (hbegin : ∀ i job, act = .begin i job → P job) (hs : s.step prog act = some s') :
    ∀ i σ, s'.sessions i = some σ → P σ.job := by
  intro j τ hτ
  cases act with
  | begin i job =>
      obtain ⟨-, rfl⟩ := begin_cases hs
      rcases sessions_update hτ with ⟨-, hnew⟩ | ⟨-, hold⟩
      · obtain rfl := Option.some.inj hnew
        exact hbegin i job rfl
      · exact hopen j τ hold
  | exec i =>
      obtain ⟨σ, σ', need, hσ, hadvance, -, -, -, hsessions, -⟩ := exec_cases hs
      rw [hsessions] at hτ
      rcases sessions_update hτ with ⟨-, hnew⟩ | ⟨-, hold⟩
      · obtain rfl := Option.some.inj hnew
        rw [Session.advance_job hadvance]
        exact hopen i σ hσ
      · exact hopen j τ hold
  | commit i =>
      obtain ⟨σ, a, -, -, rfl⟩ := commit_cases hs
      exact hopen j τ (sessions_drop hτ).2
  | rollback i =>
      obtain ⟨σ, -, rfl⟩ := rollback_cases hs
      exact hopen j τ (sessions_drop hτ).2

/-- A run of jobs that are allowed to be open together. -/
theorem Server.Reach.of_run_together {prog : ι → Tx ν ε α}
    {allowed : Server ν ε α ι → ι → Prop} {P : ι → Prop} {s₀ s s' : Server ν ε α ι}
    {acts : List (Act ι)} (h : Reach prog allowed s₀ s)
    (hallowed : ∀ s job, (∀ i σ, s.sessions i = some σ → P σ.job) → P job → allowed s job)
    (hopen : ∀ i σ, s.sessions i = some σ → P σ.job) (hbegin : ∀ i job, .begin i job ∈ acts → P job)
    (hrun : Server.run prog acts s = some s') : Reach prog allowed s₀ s' := by
  induction acts generalizing s with
  | nil =>
      obtain rfl := Option.some.inj hrun
      exact h
  | cons act rest ih =>
      obtain ⟨s₁, hstep, hrest⟩ := Option.bind_eq_some_iff.mp hrun
      have hfirst : ∀ i job, act = .begin i job → P job := by
        rintro i job rfl
        exact hbegin i job List.mem_cons_self
      exact ih (h.step (fun i job heq => hallowed s job hopen (hfirst i job heq)) hstep)
        (Server.step_jobs hopen hfirst hstep)
        (fun i job hmem => hbegin i job (List.mem_cons_of_mem _ hmem)) hrest

/-- A body that first claims its key, and is over if the key already has a row. -/
def Tx.GuardedBy (k : κ) (p : Tx ν ε α) : Prop :=
  ∃ (a : α) (row : ν k) (body : Tx ν ε α),
    p = .claim k fun taken => if taken then .pure a else .put k row body

/-- A body that touches no row. -/
def Tx.Inert (p : Tx ν ε α) : Prop := (∃ a, p = .pure a) ∨ ∃ e, p = .throw e

/-- A body with a key is guarded by it, or only ever raises; one without does nothing. -/
def Tx.GuardedAs (key : Option κ) (p : Tx ν ε α) : Prop :=
  match key with
  | some k => p.GuardedBy k ∨ ∃ e, p = .throw e
  | none => p.Inert

def Guarded (prog : ι → Tx ν ε α) (key : ι → Option κ) : Prop :=
  ∀ job, (prog job).GuardedAs (key job)

/-- A guarded job that commits got past its guard. -/
theorem Guarded.of_run {prog : ι → Tx ν ε α} {key : ι → Option κ}
    (h : Guarded prog key) {job : ι} {k : κ} (hkey : key job = some k) {db : Store ν}
    {r : α × Store ν} (hrun : (prog job).run db = .ok r) : (prog job).GuardedBy k := by
  have hjob := h job
  rw [hkey] at hjob
  rcases hjob with hguard | ⟨e, he⟩
  · exact hguard
  · rw [he] at hrun
    simp at hrun

omit [DecidableEq κ] in
theorem Guarded.inert {prog : ι → Tx ν ε α} {key : ι → Option κ} (h : Guarded prog key) {job : ι}
    (hkey : key job = none) : (prog job).Inert := by
  have hjob := h job
  rw [hkey] at hjob
  exact hjob

/-- The first job of each key, in order. -/
def firsts (key : ι → Option κ) (history : List ι) : List ι :=
  history.foldl (fun kept job => if key job ∈ kept.map key then kept else kept ++ [job]) []

/-- Each job of a list applied once, in order, as a transaction with nothing else running. -/
def applied (prog : ι → Tx ν ε α) (db : Store ν) (jobs : List ι) : Store ν :=
  jobs.foldl (fun db job => (atomically (prog job) db).2) db

/-! ### The first jobs of a history -/

theorem firsts_append (key : ι → Option κ) (history : List ι) (job : ι) :
    firsts key (history ++ [job]) =
      if key job ∈ (firsts key history).map key then firsts key history
      else firsts key history ++ [job] := by
  unfold firsts
  rw [List.foldl_append]
  rfl

theorem mem_of_mem_firsts {key : ι → Option κ} {history : List ι} {job : ι}
    (h : job ∈ firsts key history) : job ∈ history := by
  induction history using List.reverseRecOn with
  | nil => simp [firsts] at h
  | append_singleton history last ih =>
      rw [firsts_append] at h
      split at h
      · exact List.mem_append.mpr (Or.inl (ih h))
      · rcases List.mem_append.mp h with h | h
        · exact List.mem_append.mpr (Or.inl (ih h))
        · exact List.mem_append.mpr (Or.inr h)

theorem applied_append (prog : ι → Tx ν ε α) (db : Store ν) (jobs : List ι) (job : ι) :
    applied prog db (jobs ++ [job]) = (atomically (prog job) (applied prog db jobs)).2 := by
  simp [applied]

/-! ### Guarded bodies -/

namespace Tx

variable {p : Tx ν ε α} {k : κ} {db db' : Store ν} {a : α}

theorem GuardedBy.run_of_mem (h : p.GuardedBy k) (hk : k ∈ db) (hrun : p.run db = .ok (a, db')) :
    db' = db := by
  obtain ⟨b, row, body, rfl⟩ := h
  have hlook : (db.lookup k).isSome = true := Finmap.lookup_isSome.mpr hk
  simp only [run_claim, hlook, if_true, run_pure, Except.ok.injEq, Prod.mk.injEq] at hrun
  exact hrun.2.symm

theorem GuardedBy.mem_of_run (h : p.GuardedBy k) (hrun : p.run db = .ok (a, db')) : k ∈ db' := by
  obtain ⟨b, row, body, rfl⟩ := h
  by_cases hk : k ∈ db
  · exact run_mono hrun hk
  · have hlook : (db.lookup k).isSome = false := by
      rw [Finmap.lookup_eq_none.mpr hk]
      rfl
    simp only [run_claim, hlook, Bool.false_eq_true, if_false, run_put] at hrun
    exact run_mono hrun (Finmap.mem_insert.mpr (Or.inl rfl))

omit [DecidableEq κ] in
theorem Inert.run [DecidableEq κ] (h : p.Inert) (hrun : p.run db = .ok (a, db')) : db' = db := by
  rcases h with ⟨b, rfl⟩ | ⟨e, rfl⟩
  · simp only [run_pure, Except.ok.injEq, Prod.mk.injEq] at hrun
    exact hrun.2.symm
  · simp at hrun

end Tx

/-! ### Nothing happens before the key is claimed -/

/-- The rule that only asks for writes to be held. -/
def Discipline.heldWrites : Discipline ν where
  mayPut _ _ _ := True
  mayRead _ _ := True
  mayMiss _ _ := True
  mayClaim _ := True
  put_mono _ h := h
  read_mono _ h := h
  miss_mono _ h := h

/-- The rule that nothing is read or written before the key is claimed. -/
def Discipline.after (key : Option κ) : Discipline ν where
  mayPut g _ _ := ∃ k ∈ g.claimed, key = some k
  mayRead g _ := ∃ k ∈ g.claimed, key = some k
  mayMiss g _ := ∃ k ∈ g.claimed, key = some k
  mayClaim _ := True
  put_mono hle := fun ⟨k, hk, heq⟩ => ⟨k, hle.claimed k hk, heq⟩
  read_mono hle := fun ⟨k, hk, heq⟩ => ⟨k, hle.claimed k hk, heq⟩
  miss_mono hle := fun ⟨k, hk, heq⟩ => ⟨k, hle.claimed k hk, heq⟩

omit [DecidableEq κ] in
theorem Tx.Obeys.after {p : Tx ν ε α} {key : Option κ} {g : Grip κ}
    (h : p.Obeys .heldWrites g) (hg : ∃ k ∈ g.claimed, key = some k) :
    p.Obeys (.after key) g := by
  induction p generalizing g with
  | pure a => trivial
  | throw e => trivial
  | read k next ih =>
      exact ⟨hg, ih none h.2.1 hg, fun row => ih (some row) (h.2.2 row) hg⟩
  | lock k next ih =>
      exact ⟨h.1.imp id fun hmiss => ⟨hg, ih none hmiss.2 hg⟩,
        fun row => ih (some row) (h.2 row) hg⟩
  | claim k next ih =>
      obtain ⟨k', hk', heq⟩ := hg
      exact ⟨trivial, ih true h.2.1 ⟨k', hk', heq⟩,
        ih false h.2.2 ⟨k', List.mem_cons_of_mem _ hk', heq⟩⟩
  | put k row next ih => exact ⟨⟨h.1.1, hg⟩, ih h.2 hg⟩

omit [DecidableEq κ] in
theorem Guarded.obeys {prog : ι → Tx ν ε α} {key : ι → Option κ} (h : Guarded prog key)
    (hheld : ∀ job, (prog job).Obeys .heldWrites .none) (job : ι) :
    (prog job).Obeys (.after (key job)) .none := by
  have hjob := h job
  have hobey := hheld job
  cases hkey : key job with
  | none =>
      rcases h.inert hkey with ⟨a, ha⟩ | ⟨e, he⟩
      · rw [ha]; trivial
      · rw [he]; trivial
  | some k =>
      rw [hkey] at hjob
      rcases hjob with ⟨a, row, body, hbody⟩ | ⟨e, he⟩
      case inr => rw [he]; trivial
      rw [hbody] at hobey ⊢
      have hclaimed : ∃ k' ∈ (Grip.none.claim k).claimed, some k = some k' := ⟨k, by simp [Grip.claim], rfl⟩
      exact ⟨trivial, trivial, ⟨⟨hobey.2.2.1.1, hclaimed⟩, hobey.2.2.2.after hclaimed⟩⟩

/-! ### The invariant of a run -/

/-- What holds of a server that only has attempts on one key open at a time. -/
structure Server.Once (prog : ι → Tx ν ε α) (key : ι → Option κ) (db₀ : Store ν)
    (s : Server ν ε α ι) : Prop where
  sound : s.Sound prog
  disciplined : s.Disciplined fun job => .after (key job)
  oneKey : ∀ i j σ τ, s.sessions i = some σ → s.sessions j = some τ → key σ.job = key τ.job
  taken : ∀ job ∈ s.history, ∀ k, key job = some k → k ∈ s.db
  db : s.db = applied prog db₀ (firsts key s.history)

namespace Server

variable {prog : ι → Tx ν ε α} {key : ι → Option κ} {db₀ : Store ν} {s s' : Server ν ε α ι}

/-- Of two open attempts only one can hold the key, so the other has read and written nothing. -/
theorem Once.unshadowed (h : s.Once prog key db₀) (i : ℕ) : s.Unshadowed i := by
  intro σ hσ j τ hj hτ k hpeek hwrite
  obtain ⟨gσ, hgσ⟩ := h.disciplined i σ hσ
  obtain ⟨gτ, hgτ⟩ := h.disciplined j τ hτ
  obtain ⟨row, hrow⟩ := Finmap.mem_iff.mp hwrite
  obtain ⟨k₁, hk₁, hkey₁⟩ := (hgσ.writes k row hrow).2
  have hτclaim : ∃ k₂ ∈ gτ.claimed, key τ.job = some k₂ := by
    rcases List.mem_append.mp hpeek with hr | hm
    · exact hgτ.reads k hr
    · exact hgτ.misses k hm
  obtain ⟨k₂, hk₂, hkey₂⟩ := hτclaim
  have heq : k₁ = k₂ := by
    have := h.oneKey i j σ τ hσ hτ
    rw [hkey₁, hkey₂] at this
    exact Option.some.inj this
  have hi := (hgσ.claimed k₁ hk₁).1
  have hj' := (hgτ.claimed k₂ hk₂).1
  rw [heq, hj'] at hi
  exact hj (Option.some.inj hi)

theorem Once.start : (start db₀ : Server ν ε α ι).Once prog key db₀ where
  sound := sound_start db₀
  disciplined := disciplined_start db₀
  oneKey := by
    intro i j σ τ h
    simp [Server.start] at h
  taken := by simp [Server.start]
  db := by simp [Server.start, firsts, applied]

theorem Once.commit (h : s.Once prog key db₀) (hguard : Guarded prog key) {i : ℕ}
    (hs : s.commit i = some s') : s'.Once prog key db₀ := by
  obtain ⟨σ, a, hσ, hrun, hhist⟩ := h.sound.commit_run hs
  have hstep : (atomically (prog σ.job) s.db).2 = s'.db := by
    rw [atomically_of_ok hrun]
  have hmono : ∀ k ∈ s.db, k ∈ s'.db := fun k hk => Tx.run_mono hrun hk
  refine ⟨h.sound.commit (h.unshadowed i) hs, h.disciplined.commit hs, ?_, ?_, ?_⟩
  · obtain ⟨σ', b, -, -, rfl⟩ := commit_cases hs
    intro j l τ υ hτ hυ
    have hτ' : s.sessions j = some τ := by
      by_cases hj : j = i
      · subst hj; simp at hτ
      · simpa [Function.update_of_ne hj] using hτ
    have hυ' : s.sessions l = some υ := by
      by_cases hl : l = i
      · subst hl; simp at hυ
      · simpa [Function.update_of_ne hl] using hυ
    exact h.oneKey j l τ υ hτ' hυ'
  · intro job hmem k hk
    rw [hhist] at hmem
    rcases List.mem_append.mp hmem with hold | hnew
    · exact hmono k (h.taken job hold k hk)
    · obtain rfl := List.mem_singleton.mp hnew
      exact (hguard.of_run hk hrun).mem_of_run hrun
  · rw [hhist, firsts_append]
    split
    · -- A later commit of a key that was committed before changes nothing.
      rename_i hmem
      obtain ⟨job, hfirst, hkey⟩ := List.mem_map.mp hmem
      rw [← h.db]
      cases hk : key σ.job with
      | none => exact (hguard.inert hk).run hrun
      | some k =>
          have htaken := h.taken job (mem_of_mem_firsts hfirst) k (hkey.trans hk)
          exact (hguard.of_run hk hrun).run_of_mem htaken hrun
    · rw [applied_append, ← h.db, hstep]

theorem Once.step (h : s.Once prog key db₀) (hguard : Guarded prog key)
    (hheld : ∀ job, (prog job).Obeys .heldWrites .none) {act : Act ι}
    (hbegin : ∀ i job, act = .begin i job →
      ∀ j σ, s.sessions j = some σ → key σ.job = key job)
    (hs : s.step prog act = some s') : s'.Once prog key db₀ := by
  have hdisc := h.disciplined.step (hguard.obeys hheld) hs
  cases act with
  | begin i job =>
      have hkey := hbegin i job rfl
      have hsound := h.sound.begin hs
      obtain ⟨-, rfl⟩ := begin_cases hs
      refine ⟨hsound, hdisc, ?_, h.taken, h.db⟩
      have hjob : ∀ j τ, (Function.update s.sessions i (some (.opened prog job))) j = some τ →
          key τ.job = key job := by
        intro j τ hτ
        rcases sessions_update hτ with ⟨rfl, hopen⟩ | ⟨-, hτ⟩
        · rw [← Option.some.inj hopen]
          rfl
        · exact hkey j τ hτ
      exact fun j l τ υ hτ hυ => (hjob j τ hτ).trans (hjob l υ hυ).symm
  | exec i =>
      have hsound := h.sound.exec hs
      obtain ⟨σ, σ', need, hσ, hadv, -, hdb, hhist, hsess, -⟩ := exec_cases hs
      refine ⟨hsound, hdisc, ?_, ?_, ?_⟩
      · have hjob : ∀ j τ, s'.sessions j = some τ → key τ.job = key σ.job := by
          intro j τ hτ
          rw [hsess] at hτ
          rcases sessions_update hτ with ⟨rfl, hnext⟩ | ⟨-, hτ⟩
          · rw [← Option.some.inj hnext, Session.advance_job hadv]
          · exact h.oneKey j i τ σ hτ hσ
        exact fun j l τ υ hτ hυ => (hjob j τ hτ).trans (hjob l υ hυ).symm
      · rw [hdb, hhist]
        exact h.taken
      · rw [hdb, hhist]
        exact h.db
  | commit i => exact h.commit hguard hs
  | rollback i =>
      have hsound := h.sound.rollback hs
      obtain ⟨σ, -, rfl⟩ := rollback_cases hs
      refine ⟨hsound, hdisc, ?_, h.taken, h.db⟩
      intro j l τ υ hτ hυ
      exact h.oneKey j l τ υ (sessions_drop hτ).2 (sessions_drop hυ).2

/--
**Guarded jobs have their effect exactly once.**  Whatever attempts are made, overlap
on one key, fail and are made again, the committed rows are those of applying the
first committed attempt of each key, once, in order.
-/
theorem exactly_once (hguard : Guarded prog key) (hheld : ∀ job, (prog job).Obeys .heldWrites .none)
    (hreach : Reach prog (fun s job => ∀ j σ, s.sessions j = some σ → key σ.job = key job)
      (Server.start db₀) s) :
    s.db = applied prog db₀ (firsts key s.history) := by
  have hinv : s.Once prog key db₀ := by
    induction hreach with
    | start => exact .start
    | step _ hbegin hs ih => exact ih.step hguard hheld hbegin hs
  exact hinv.db

end Server

end Txn

/-
A commit is the body run at that moment.

Between its first access and its commit a session sees other sessions commit, so
what it has read may no longer be there.  `Replays` says that it still is: run from
the start on the rows committed now, the body gets to the same place with the same
writes.  A key the session holds cannot change under it, so the only danger is a key
it has peeked at; `Unshadowed` is the condition that no such key is being written by
the session about to commit, and under it `Sound` is kept and every commit is one
atomic run of its body on the rows committed before it.
-/
import CommercePlatform.Txn.Server

namespace Txn

variable {κ : Type} [DecidableEq κ] {ν : κ → Type} {ε α ι : Type}

/--
Run on `db`, the body gets to `rest` with `writes`, relying on the rows, or the
absence of rows, at the keys `used`.  That a claimed key had a row already is not
among them: rows are never removed.
-/
inductive Replays (db : Store ν) (p : Tx ν ε α) : Tx ν ε α → Store ν → List κ → Prop where
  | start : Replays db p p ∅ []
  | read {k : κ} {next : Option (ν k) → Tx ν ε α} {writes : Store ν} {used : List κ}
      (h : Replays db p (.read k next) writes used) :
      Replays db p (next ((writes ∪ db).lookup k)) writes (k :: used)
  | lock {k : κ} {next : Option (ν k) → Tx ν ε α} {writes : Store ν} {used : List κ}
      (h : Replays db p (.lock k next) writes used) :
      Replays db p (next ((writes ∪ db).lookup k)) writes (k :: used)
  | claimOld {k : κ} {next : Bool → Tx ν ε α} {writes : Store ν} {used : List κ}
      (h : Replays db p (.claim k next) writes used) (hk : k ∈ writes ∪ db) :
      Replays db p (next true) writes used
  | claimNew {k : κ} {next : Bool → Tx ν ε α} {writes : Store ν} {used : List κ}
      (h : Replays db p (.claim k next) writes used) (hk : k ∉ writes ∪ db) :
      Replays db p (next false) writes (k :: used)
  | put {k : κ} {row : ν k} {next : Tx ν ε α} {writes : Store ν} {used : List κ}
      (h : Replays db p (.put k row next) writes used) :
      Replays db p next (writes.insert k row) used

theorem lookup_union_congr {w db db' : Store ν} {k : κ} (h : db'.lookup k = db.lookup k) :
    (w ∪ db').lookup k = (w ∪ db).lookup k := by
  by_cases hk : k ∈ w
  · rw [Finmap.lookup_union_left hk, Finmap.lookup_union_left hk]
  · rw [Finmap.lookup_union_right hk, Finmap.lookup_union_right hk, h]

namespace Replays

variable {db db' : Store ν} {p rest : Tx ν ε α} {writes : Store ν} {used : List κ}

/-- The whole body, run on the committed rows, does what is left does on the session's view. -/
theorem run_eq (h : Replays db p rest writes used) : p.run db = rest.run (writes ∪ db) := by
  induction h with
  | start => simp
  | read _ ih => exact ih
  | lock _ ih => exact ih
  | claimOld _ hk ih => rw [ih, Tx.run_claim, Finmap.lookup_isSome.mpr hk]
  | claimNew _ hk ih => rw [ih, Tx.run_claim, Finmap.lookup_eq_none.mpr hk]; rfl
  | put _ ih => rw [ih, Tx.run_put, Finmap.insert_union]

/-- The rows used so far may not change; any other may, and none is removed. -/
theorem stable (h : Replays db p rest writes used)
    (hsame : ∀ k ∈ used, db'.lookup k = db.lookup k) (hmono : ∀ k ∈ db, k ∈ db') :
    Replays db' p rest writes used := by
  induction h with
  | start => exact .start
  | read _ ih =>
      rw [← lookup_union_congr (hsame _ (by simp))]
      exact .read (ih fun k hk => hsame k (by simp [hk]))
  | lock _ ih =>
      rw [← lookup_union_congr (hsame _ (by simp))]
      exact .lock (ih fun k hk => hsame k (by simp [hk]))
  | claimOld _ hk ih =>
      refine .claimOld (ih hsame) ?_
      rcases Finmap.mem_union.mp hk with hw | hd
      · exact Finmap.mem_union.mpr (Or.inl hw)
      · exact Finmap.mem_union.mpr (Or.inr (hmono _ hd))
  | @claimNew k next writes used _ hk ih =>
      refine .claimNew (ih fun k' hk' => hsame k' (by simp [hk'])) ?_
      rw [← Finmap.lookup_eq_none, lookup_union_congr (hsame k (by simp)), Finmap.lookup_eq_none]
      exact hk
  | put _ ih => exact .put (ih hsame)

/-- One access takes the replay one step further. -/
theorem advance {σ σ' : Session ν ε α ι} {need : Option κ}
    (h : Replays db p σ.rest σ.writes used) (hadv : σ.advance db = some (σ', need)) :
    ∃ used', Replays db p σ'.rest σ'.writes used' ∧
      ∀ k ∈ used', k ∈ used ∨ need = some k ∨ k ∈ σ'.peeked := by
  cases Session.advance_cases hadv with
  | read hrest =>
      rw [hrest] at h
      refine ⟨_, .read h, fun k' hk' => ?_⟩
      rcases List.mem_cons.mp hk' with rfl | hk'
      · exact Or.inr (Or.inr (by simp [Session.peeked]))
      · exact Or.inl hk'
  | missed hrest hrow =>
      rw [hrest] at h
      have hnext := Replays.lock h
      rw [show (σ.writes ∪ db).lookup _ = none from hrow] at hnext
      refine ⟨_, hnext, fun k' hk' => ?_⟩
      rcases List.mem_cons.mp hk' with rfl | hk'
      · exact Or.inr (Or.inr (by simp [Session.peeked]))
      · exact Or.inl hk'
  | @locked k next row hrest hrow =>
      rw [hrest] at h
      have hnext := Replays.lock h
      rw [show (σ.writes ∪ db).lookup k = some row from hrow] at hnext
      refine ⟨_, hnext, fun k' hk' => ?_⟩
      rcases List.mem_cons.mp hk' with rfl | hk'
      · exact Or.inr (Or.inl rfl)
      · exact Or.inl hk'
  | found hrest hrow =>
      rw [hrest] at h
      exact ⟨_, .claimOld h (Finmap.mem_iff.mpr ⟨_, hrow⟩), fun _ => Or.inl⟩
  | claimed hrest hrow =>
      rw [hrest] at h
      refine ⟨_, .claimNew h (Finmap.lookup_eq_none.mp hrow), fun k' hk' => ?_⟩
      rcases List.mem_cons.mp hk' with rfl | hk'
      · exact Or.inr (Or.inl rfl)
      · exact Or.inl hk'
  | put hrest =>
      rw [hrest] at h
      exact ⟨_, .put h, fun _ => Or.inl⟩

end Replays

/-! ### The invariant of a server -/

/-- What holds of one open session. -/
structure Session.Sound (prog : ι → Tx ν ε α) (s : Server ν ε α ι) (i : ℕ)
    (σ : Session ν ε α ι) : Prop where
  /-- It holds every key it has written. -/
  writesHeld : ∀ k ∈ σ.writes, s.locks k = some i
  /-- Its body replays on the rows committed now, on keys it holds or has peeked at. -/
  replays : ∃ used, Replays s.db (prog σ.job) σ.rest σ.writes used ∧
    ∀ k ∈ used, s.locks k = some i ∨ k ∈ σ.peeked

/-- Every open session is where its body would be, had it run on the rows committed now. -/
def Server.Sound (prog : ι → Tx ν ε α) (s : Server ν ε α ι) : Prop :=
  ∀ i σ, s.sessions i = some σ → σ.Sound prog s i

/-- No other session has peeked at a key that session `i` has written. -/
def Server.Unshadowed (s : Server ν ε α ι) (i : ℕ) : Prop :=
  ∀ σ, s.sessions i = some σ → ∀ j τ, j ≠ i → s.sessions j = some τ →
    ∀ k ∈ τ.peeked, k ∉ σ.writes

namespace Server

variable {prog : ι → Tx ν ε α} {s s' : Server ν ε α ι} {i : ℕ}

theorem sound_start (db : Store ν) : (start db : Server ν ε α ι).Sound prog := by
  intro i σ h
  simp [start] at h

theorem Sound.begin (h : s.Sound prog) {job : ι} (hs : s.begin prog i job = some s') :
    s'.Sound prog := by
  obtain ⟨-, rfl⟩ := begin_cases hs
  intro j τ hτ
  rcases sessions_update hτ with ⟨rfl, hopen⟩ | ⟨-, hτ⟩
  · obtain rfl := Option.some.inj hopen
    exact ⟨fun k hk => absurd hk Finmap.notMem_empty, [], .start, by simp⟩
  · exact ⟨(h j τ hτ).writesHeld, (h j τ hτ).replays⟩

theorem Sound.rollback (h : s.Sound prog) (hs : s.rollback i = some s') : s'.Sound prog := by
  obtain ⟨σ, -, rfl⟩ := rollback_cases hs
  intro j τ hτ
  obtain ⟨hj, hτ⟩ := sessions_drop hτ
  obtain ⟨hheld, used, hrep, hused⟩ := h j τ hτ
  refine ⟨fun k hk => released_eq_some.mpr ⟨hheld k hk, hj⟩, used, hrep, fun k hk => ?_⟩
  exact (hused k hk).imp (fun hl => released_eq_some.mpr ⟨hl, hj⟩) id

theorem Sound.exec (h : s.Sound prog) (hs : s.exec i = some s') : s'.Sound prog := by
  have hkeep : ∀ {j k}, s.locks k = some j → s'.locks k = some j := locks_of_exec hs
  obtain ⟨σ, σ', need, hσ, hadv, -, hdb, -, hsess, hlocks⟩ := exec_cases hs
  have hneed : ∀ k, need = some k → s'.locks k = some i := by
    rintro k rfl
    rw [hlocks]
    simp
  intro j τ hτ
  rw [hsess] at hτ
  rcases sessions_update hτ with ⟨rfl, hnext⟩ | ⟨-, hτ⟩
  · obtain rfl := Option.some.inj hnext
    obtain ⟨hheld, used, hrep, hused⟩ := h j σ hσ
    refine ⟨fun k hk => ?_, ?_⟩
    · rcases Session.advance_writes hadv hk with hw | hn
      · exact hkeep (hheld k hw)
      · exact hneed k hn
    · obtain ⟨used', hrep', hused'⟩ := hrep.advance hadv
      rw [hdb, Session.advance_job hadv]
      refine ⟨used', hrep', fun k hk => ?_⟩
      rcases hused' k hk with hu | hn | hp
      · exact (hused k hu).imp hkeep (Session.advance_peeked hadv)
      · exact Or.inl (hneed k hn)
      · exact Or.inr hp
  · obtain ⟨hheld, used, hrep, hused⟩ := h j τ hτ
    refine ⟨fun k hk => hkeep (hheld k hk), used, hdb ▸ hrep, fun k hk => ?_⟩
    exact (hused k hk).imp hkeep id

/-- A row that no open session has peeked at, and none holds, may be changed by a statement
outside any transaction. -/
theorem Sound.update (h : s.Sound prog) {k : κ} {row : ν k}
    (hfree : s.locks k = none) (hpeek : ∀ j τ, s.sessions j = some τ → k ∉ τ.peeked) :
    ({ s with db := s.db.insert k row } : Server ν ε α ι).Sound prog := by
  intro j τ hτ
  obtain ⟨hheld, used, hrep, hused⟩ := h j τ hτ
  refine ⟨hheld, used, hrep.stable (fun k' hk' => ?_) ?_, hused⟩
  · refine Finmap.lookup_insert_of_ne _ ?_
    rintro rfl
    rcases hused k' hk' with hl | hp
    · rw [hfree] at hl
      simp at hl
    · exact hpeek j τ hτ hp
  · exact fun k' hk' => Finmap.mem_insert.mpr (Or.inr hk')

theorem Sound.commit (h : s.Sound prog) (hun : s.Unshadowed i) (hs : s.commit i = some s') :
    s'.Sound prog := by
  obtain ⟨σ, a, hσ, -, rfl⟩ := commit_cases hs
  intro j τ hτ
  obtain ⟨hj, hτ⟩ := sessions_drop hτ
  obtain ⟨hheld, used, hrep, hused⟩ := h j τ hτ
  refine ⟨fun k hk => released_eq_some.mpr ⟨hheld k hk, hj⟩, used, hrep.stable ?_ ?_, ?_⟩
  · intro k hk
    refine Finmap.lookup_union_right fun hw => ?_
    rcases hused k hk with hl | hp
    · rw [(h i σ hσ).writesHeld k hw] at hl
      exact hj (Option.some.inj hl).symm
    · exact hun σ hσ j τ hj hτ k hp hw
  · exact fun k hk => Finmap.mem_union.mpr (Or.inr hk)
  · exact fun k hk => (hused k hk).imp (fun hl => released_eq_some.mpr ⟨hl, hj⟩) id

/-- Where a session has raised, so would its body, run on the rows committed now. -/
theorem Sound.run_of_throw (h : s.Sound prog) {σ : Session ν ε α ι} (hσ : s.sessions i = some σ)
    {e : ε} (hrest : σ.rest = .throw e) : (prog σ.job).run s.db = .error e := by
  obtain ⟨-, used, hrep, -⟩ := h i σ hσ
  rw [hrep.run_eq, hrest, Tx.run_throw]

/-- **A commit is one atomic run of its body on the rows committed before it.** -/
theorem Sound.commit_run (h : s.Sound prog) (hs : s.commit i = some s') :
    ∃ σ a, s.sessions i = some σ ∧ (prog σ.job).run s.db = .ok (a, s'.db) ∧
      s'.history = s.history ++ [σ.job] := by
  obtain ⟨σ, a, hσ, ha, rfl⟩ := commit_cases hs
  obtain ⟨-, used, hrep, -⟩ := h i σ hσ
  refine ⟨σ, a, hσ, ?_, rfl⟩
  rw [hrep.run_eq, ha, Tx.run_pure]

end Server

end Txn

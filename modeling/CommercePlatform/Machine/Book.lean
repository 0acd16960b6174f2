/-
Requests that are served once.

A book has at most one entry under a key.  The first request under a key makes the entry;
a later one is answered from it or, if it asks for something else, refused; and any
request may fail and leave no trace.  In between, the entries go on from state to state.

This is what a service means to be that may be asked the same thing several times: here
it is asked one thing after the other.  What its answers have to do with one another
follows from this alone.
-/
import Mathlib.Data.List.Basic
import Mathlib.Logic.Relation

namespace Machine

open Relation

variable {κ ι η σ : Type*}

/-- What a request has made. -/
structure Entry (ι η σ : Type*) where
  name : ι
  /-- The print of the request that made it. -/
  print : η
  state : σ

structure Request (κ η : Type*) where
  key : κ
  print : η

inductive Answer (ι σ : Type*) where
  | made (name : ι)
  | found (name : ι) (state : σ)
  | refused
  | failed

/-- What an answer tells of an entry. -/
def Answer.tells (first : σ) : Answer ι σ → Option (ι × σ)
  | made name => some (name, first)
  | found name state => some (name, state)
  | refused => none
  | failed => none

/-- An entry, and the same entry some time after. -/
structure Entry.Later (next : σ → σ → Prop) (entry entry' : Entry ι η σ) : Prop where
  name : entry'.name = entry.name
  print : entry'.print = entry.print
  state : ReflTransGen next entry.state entry'.state

theorem Entry.Later.trans {next : σ → σ → Prop} {a b c : Entry ι η σ} (hab : a.Later next b)
    (hbc : b.Later next c) : a.Later next c where
  name := hbc.name.trans hab.name
  print := hbc.print.trans hab.print
  state := hab.state.trans hbc.state

def Book (κ ι η σ : Type*) := κ → Option (Entry ι η σ)

namespace Book

variable [DecidableEq κ]

/-- The book with an entry under the key. -/
def write (book : Book κ ι η σ) (key : κ) (entry : Entry ι η σ) : Book κ ι η σ :=
  Function.update book key (some entry)

@[simp] theorem write_self (book : Book κ ι η σ) (key : κ) (entry : Entry ι η σ) :
    book.write key entry key = some entry := Function.update_self _ _ _

theorem write_of_ne {key key' : κ} (h : key' ≠ key) (book : Book κ ι η σ) (entry : Entry ι η σ) :
    book.write key entry key' = book key' := Function.update_of_ne h _ _

/-- A request is served, all at once. -/
inductive Serves (first : σ) (book : Book κ ι η σ) (request : Request κ η) :
    Answer ι σ → Book κ ι η σ → Prop where
  | made {name : ι} (hfree : book request.key = none)
      (hnew : ∀ key entry, book key = some entry → entry.name ≠ name) :
      Serves first book request (.made name)
        (book.write request.key ⟨name, request.print, first⟩)
  | found {entry : Entry ι η σ} (hentry : book request.key = some entry)
      (hsame : entry.print = request.print) :
      Serves first book request (.found entry.name entry.state) book
  | refused {entry : Entry ι η σ} (hentry : book request.key = some entry)
      (hother : entry.print ≠ request.print) : Serves first book request .refused book
  | failed : Serves first book request .failed book

/-- No entry comes and none goes, but they may go on. -/
def GoesOn (next : σ → σ → Prop) (book book' : Book κ ι η σ) : Prop :=
  ∀ key, Option.Rel (Entry.Later next) (book key) (book' key)

/-- Requests are served one after the other, with these answers. -/
inductive Run (first : σ) (next : σ → σ → Prop) (book₀ : Book κ ι η σ) :
    List (Request κ η × Answer ι σ) → Book κ ι η σ → Prop where
  | start : Run first next book₀ [] book₀
  | goOn {history : List (Request κ η × Answer ι σ)} {book book' : Book κ ι η σ}
      (h : Run first next book₀ history book) (hgo : book.GoesOn next book') :
      Run first next book₀ history book'
  | serve {history : List (Request κ η × Answer ι σ)} {book book' : Book κ ι η σ}
      {request : Request κ η} {answer : Answer ι σ} (h : Run first next book₀ history book)
      (hserve : book.Serves first request answer book') :
      Run first next book₀ (history ++ [(request, answer)]) book'

variable {first : σ} {next : σ → σ → Prop} {book book' book₀ : Book κ ι η σ}
  {request request' : Request κ η} {answer answer' : Answer ι σ}
  {history history₁ history₂ history₃ : List (Request κ η × Answer ι σ)}

/-- A run can go on. -/
theorem Run.append (h : Run first next book₀ history₁ book) (h' : Run first next book history₂ book') :
    Run first next book₀ (history₁ ++ history₂) book' := by
  induction h' with
  | start =>
      rw [List.append_nil]
      exact h
  | goOn _ hgo ih => exact ih.goOn hgo
  | serve _ hserve ih =>
      rw [← List.append_assoc]
      exact ih.serve hserve

/-! ### What becomes of an entry -/

/-- No request changes an entry that there is. -/
theorem Serves.kept (h : book.Serves first request answer book') {key : κ} {entry : Entry ι η σ}
    (hentry : book key = some entry) : book' key = some entry := by
  cases h with
  | @made name hfree hnew =>
      have hne : key ≠ request.key := by
        intro heq
        rw [heq, hfree] at hentry
        simp at hentry
      exact (write_of_ne hne _ _).trans hentry
  | found => exact hentry
  | refused => exact hentry
  | failed => exact hentry

theorem Run.kept (h : Run first next book₀ history book) {key : κ} {entry : Entry ι η σ}
    (hentry : book₀ key = some entry) :
    ∃ entry', book key = some entry' ∧ entry.Later next entry' := by
  induction h with
  | start => exact ⟨entry, hentry, rfl, rfl, .refl⟩
  | @goOn _ _ book' _ hgo ih =>
      obtain ⟨entry₁, hentry₁, hlater₁⟩ := ih
      have hrel := hgo key
      rw [hentry₁] at hrel
      generalize hentry₂ : book' key = after at hrel
      cases hrel with
      | some hlater₂ => exact ⟨_, rfl, hlater₁.trans hlater₂⟩
  | serve _ hserve ih =>
      obtain ⟨entry₁, hentry₁, hlater₁⟩ := ih
      exact ⟨entry₁, hserve.kept hentry₁, hlater₁⟩

/-! ### What the answers have to do with one another -/

/-- What an answer tells is in the book. -/
theorem Serves.tells (h : book.Serves first request answer book') {name : ι} {state : σ}
    (htells : answer.tells first = some (name, state)) :
    book' request.key = some ⟨name, request.print, state⟩ := by
  cases h with
  | made hfree hnew =>
      obtain ⟨rfl, rfl⟩ := Prod.mk.inj (Option.some.inj htells)
      exact write_self _ _ _
  | @found entry hentry hsame =>
      obtain ⟨rfl, rfl⟩ := Prod.mk.inj (Option.some.inj htells)
      rw [hentry, ← hsame]
  | refused => simp [Answer.tells] at htells
  | failed => simp [Answer.tells] at htells

/-- A request under a key that has an entry is answered from it. -/
theorem Serves.answer_of_entry (h : book.Serves first request answer book')
    {entry : Entry ι η σ} (hentry : book request.key = some entry) :
    answer = .failed ∨
      (request.print = entry.print ∧ answer = .found entry.name entry.state) ∨
      (request.print ≠ entry.print ∧ answer = .refused) := by
  cases h with
  | made hfree hnew =>
      rw [hfree] at hentry
      simp at hentry
  | found hfound hsame =>
      obtain rfl := Option.some.inj (hfound.symm.trans hentry)
      exact Or.inr (Or.inl ⟨hsame.symm, rfl⟩)
  | refused hfound hother =>
      obtain rfl := Option.some.inj (hfound.symm.trans hentry)
      exact Or.inr (Or.inr ⟨hother.symm, rfl⟩)
  | failed => exact Or.inl rfl

/-- Each answer of a run was given at some moment of it. -/
theorem Run.served (h : Run first next book₀ (history₁ ++ (request, answer) :: history₂) book) :
    ∃ before after, Run first next book₀ history₁ before ∧
      before.Serves first request answer after ∧ Run first next after history₂ book := by
  generalize hhistory : history₁ ++ (request, answer) :: history₂ = history at h
  induction h generalizing history₂ with
  | start => simp at hhistory
  | goOn _ hgo ih =>
      obtain ⟨before, after, hbefore, hserve, hafter⟩ := ih hhistory
      exact ⟨before, after, hbefore, hserve, hafter.goOn hgo⟩
  | @serve history book book' request' answer' hrun hserve ih =>
      rcases List.eq_nil_or_concat' history₂ with rfl | ⟨rest, last, rfl⟩
      · obtain ⟨rfl, hlast⟩ := List.append_inj' hhistory rfl
        obtain ⟨rfl, rfl⟩ := Prod.mk.inj (List.singleton_inj.mp hlast)
        exact ⟨book, book', hrun, hserve, .start⟩
      · have hsplit : (history₁ ++ (request, answer) :: rest) ++ [last] =
            history ++ [(request', answer')] := by
          rw [← hhistory, List.append_assoc]
          rfl
        obtain ⟨hrest, hlast⟩ := List.append_inj' hsplit rfl
        obtain rfl := List.singleton_inj.mp hlast
        obtain ⟨before, after, hbefore, hserve', hafter⟩ := ih hrest
        exact ⟨before, after, hbefore, hserve', hafter.serve hserve⟩

/-- What an answer has told of stays in the book, and may have gone on. -/
theorem Run.told (h : Run first next book₀ (history₁ ++ (request, answer) :: history₂) book)
    {name : ι} {state : σ} (htells : answer.tells first = some (name, state)) :
    ∃ entry, book request.key = some entry ∧
      Entry.Later next ⟨name, request.print, state⟩ entry := by
  obtain ⟨_, after, -, hserve, hrest⟩ := h.served
  exact hrest.kept (hserve.tells htells)

/-- What was refused finds another entry under its key, then and later. -/
theorem Run.refused (h : Run first next book₀ (history₁ ++ (request, .refused) :: history₂) book) :
    ∃ entry, book request.key = some entry ∧ entry.print ≠ request.print := by
  obtain ⟨before, after, -, hserve, hrest⟩ := h.served
  cases hserve with
  | refused hentry hother =>
      obtain ⟨entry', hentry', hlater⟩ := hrest.kept hentry
      refine ⟨entry', hentry', ?_⟩
      rw [hlater.print]
      exact hother

/--
**Once an answer has told of an entry, the requests under its key are told of that entry,
in a state that it has gone on to, or are refused, as they ask for the same or not.**
-/
theorem Run.answers_go_on
    (h : Run first next book₀
      (history₁ ++ (request, answer) :: (history₂ ++ (request', answer') :: history₃)) book)
    (hkey : request'.key = request.key) {name : ι} {state : σ}
    (htells : answer.tells first = some (name, state)) :
    answer' = .failed ∨
      (request'.print = request.print ∧
        ∃ state', answer' = .found name state' ∧ ReflTransGen next state state') ∨
      (request'.print ≠ request.print ∧ answer' = .refused) := by
  obtain ⟨_, after, -, hserve, hrest⟩ := h.served
  obtain ⟨before', _, hbetween, hserve', -⟩ := hrest.served
  obtain ⟨entry, hentry, hlater⟩ := hbetween.kept (hserve.tells htells)
  rw [← hkey] at hentry
  rcases hserve'.answer_of_entry hentry with hfailed | ⟨hsame, hfound⟩ | ⟨hother, hrefused⟩
  · exact Or.inl hfailed
  · rw [hlater.name] at hfound
    exact Or.inr (Or.inl ⟨hsame.trans hlater.print, entry.state, hfound, hlater.state⟩)
  · rw [hlater.print] at hother
    exact Or.inr (Or.inr ⟨hother, hrefused⟩)

end Book

end Machine

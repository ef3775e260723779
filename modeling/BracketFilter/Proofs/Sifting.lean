import BracketFilter.Proofs.NotedTests

/-!
# Filtering on demand

Candidates that are filtered on demand are asked about when an item is wanted, and no further than
to the next one that is accepted.

* `Sift.Call`, `Sift.Answer`, `Sift.run` — calls one after the other, and their answers.
* `Sift.pull` — one item after the other until none is left.
* `Sift.eager`, `Sift.asked` — what filtering at once keeps of candidates, and what it asks about.
* `Sift.Progress` — what calls have done to the candidates.

Principal results: `Sift.run_then_rest` — whatever effects the tests have, calls and then the rest
are the same computation as filtering at once; `Sift.follows_keep` — what is yielded, asked about
and announced at each moment.
-/

set_option autoImplicit false

namespace BracketFilter

namespace Sift

variable {m : Type → Type} {α : Type}

/-! ## Calls -/

/-- A call on candidates that are filtered on demand. -/
inductive Call where
  | next
  | sizeHint
  deriving DecidableEq, Repr

/-- The answer to a call. -/
inductive Answer (α : Type) where
  | item (found : Option α)
  | bounds (least greatest : Nat)
  deriving DecidableEq, Repr

/-- The item in an answer. -/
def Answer.item? : Answer α → Option α
  | item found => found
  | bounds .. => none

/-- The items in answers. -/
def yielded (answers : List (Answer α)) : List α := answers.filterMap Answer.item?

@[simp] theorem yielded_nil : yielded ([] : List (Answer α)) = [] := rfl

@[simp] theorem yielded_cons (answer : Answer α) (answers : List (Answer α)) :
    yielded (answer :: answers) = answer.item?.toList ++ yielded answers := by
  cases h : answer.item? <;> simp [yielded, h]

@[simp] theorem yielded_append (answers more : List (Answer α)) :
    yielded (answers ++ more) = yielded answers ++ yielded more := List.filterMap_append

section Calls

variable [Monad m]

/-- The answer to a call, and what remains behind it. -/
def answer (sift : Sift m α) : Call → m (Answer α × Sift m α)
  | .next => do
    let (found, left) ← sift.next
    pure (.item found, left)
  | .sizeHint => pure (.bounds sift.sizeHint.1 sift.sizeHint.2, sift)

/-- The answers to calls one after the other, and what remains behind them. -/
def run (sift : Sift m α) : List Call → m (List (Answer α) × Sift m α)
  | [] => pure ([], sift)
  | call :: calls => do
    let (first, left) ← sift.answer call
    let (others, left) ← left.run calls
    pure (first :: others, left)

/-- The items that `next` gives until it gives none, but at most so many. -/
def pull (sift : Sift m α) : Nat → m (List α × Sift m α)
  | 0 => pure ([], sift)
  | most + 1 => do
    let (found, left) ← sift.next
    match found with
    | none => pure ([], left)
    | some a =>
      let (others, left) ← left.pull most
      pure (a :: others, left)

end Calls

/-! ## Tests with effects -/

section Effects

variable [Monad m] [LawfulMonad m]

theorem nextFrom_then_rest (predicate : Option (Predicate m α)) (candidates : List α) :
    (do
      let (found, left) ← nextFrom predicate candidates
      let kept ← left.rest
      pure (found.toList ++ kept)) = keep candidates predicate := by
  induction candidates with
  | nil => cases predicate <;> simp [nextFrom, rest, keep, Predicate.filter]
  | cons a others ih =>
    cases predicate with
    | none => simp [nextFrom, rest, keep]
    | some p =>
      simp only [nextFrom, keep, Predicate.filter, bind_assoc]
      congr 1
      funext accepted
      cases accepted
      · simp only [Bool.false_eq_true, if_false, bind_pure]
        exact ih
      · simp [rest, keep]

/-- One call and then the rest are what the rest was before. -/
theorem answer_then_rest (sift : Sift m α) (call : Call) :
    (do
      let (first, left) ← sift.answer call
      let kept ← left.rest
      pure (first.item?.toList ++ kept)) = sift.rest := by
  cases call with
  | next =>
    simp only [answer, bind_assoc, pure_bind]
    exact nextFrom_then_rest sift.predicate sift.candidates
  | sizeHint => simp [answer, Answer.item?]

/-- **Calls and then the rest are what filtering at once gives**, with the effects of the tests. -/
theorem run_then_rest (sift : Sift m α) (calls : List Call) :
    (do
      let (answers, left) ← sift.run calls
      let kept ← left.rest
      pure (yielded answers ++ kept)) = sift.rest := by
  induction calls generalizing sift with
  | nil => simp [run]
  | cons call calls ih =>
    rw [← answer_then_rest sift call]
    simp only [run, bind_assoc, pure_bind]
    congr 1
    funext first
    rw [← ih first.2]
    simp

/-- **Taking one item after the other gives the rest**, when so many are taken that none is left. -/
theorem pull_eq_rest (sift : Sift m α) {most : Nat} (enough : sift.candidates.length < most) :
    sift.pull most = (do
      let kept ← sift.rest
      pure (kept, sift.exhausted)) := by
  obtain ⟨predicate, candidates⟩ := sift
  induction candidates generalizing most with
  | nil =>
    obtain ⟨fewer, rfl⟩ : ∃ fewer, most = fewer + 1 := ⟨most - 1, by simp at enough; omega⟩
    cases predicate <;> simp [pull, next, nextFrom, rest, keep, exhausted, Predicate.filter]
  | cons a others ih =>
    obtain ⟨fewer, rfl⟩ : ∃ fewer, most = fewer + 1 := ⟨most - 1, by omega⟩
    have hlast : others.length < fewer := by simpa using enough
    cases predicate with
    | none => simp [pull, next, nextFrom, ih hlast, rest, keep, exhausted]
    | some p =>
      have hmore := ih (show others.length < fewer + 1 by omega)
      simp only [pull, next, nextFrom, rest, keep, exhausted, Predicate.filter, bind_assoc]
        at hmore ⊢
      congr 1
      funext accepted
      cases accepted
      · simpa using hmore
      · simp [ih hlast, rest, keep, exhausted]

end Effects

/-! ## Tests without effects -/

/-- What filtering at once keeps of candidates. -/
def eager (test : Option (α → Bool)) (candidates : List α) : List α :=
  (keep candidates (test.map PurePredicate.ofTest)).run

/-- What filtering at once asks about: each candidate, if there is a test. -/
def asked (test : Option (α → Bool)) (candidates : List α) : List α :=
  if test.isSome then candidates else []

@[simp] theorem eager_none (candidates : List α) : eager none candidates = candidates := rfl

@[simp] theorem eager_some (test : α → Bool) (candidates : List α) :
    eager (some test) candidates = candidates.filter test :=
  PurePredicate.run_filter (PurePredicate.ofTest test) candidates

@[simp] theorem eager_append (test : Option (α → Bool)) (candidates more : List α) :
    eager test (candidates ++ more) = eager test candidates ++ eager test more := by
  cases test <;> simp

@[simp] theorem asked_append (test : Option (α → Bool)) (candidates more : List α) :
    asked test (candidates ++ more) = asked test candidates ++ asked test more := by
  cases test <;> simp [asked]

theorem length_eager_le (test : Option (α → Bool)) (candidates : List α) :
    (eager test candidates).length ≤ candidates.length := by
  cases test with
  | none => exact Nat.le_refl _
  | some t =>
    rw [eager_some]
    exact List.length_filter_le t candidates

/-- Candidates whose test notes what it is asked about. -/
def noted (test : Option (α → Bool)) (candidates : List α) : Sift (StateM (List α)) α :=
  ⟨test.map Predicate.noting, candidates⟩

/-- The rest is what filtering at once gives, and every candidate of it is asked about. -/
theorem run_rest_noted (test : Option (α → Bool)) (candidates log : List α) :
    (noted test candidates).rest.run log =
      (eager test candidates, log ++ asked test candidates) := by
  cases test with
  | none =>
    simp only [asked, Option.isSome_none, Bool.false_eq_true, if_false, List.append_nil]
    rfl
  | some t =>
    rw [eager_some]
    exact ((Predicate.notes_noting t).run_filter candidates log).trans
      (by simp [asked])

/-- What `next` takes from candidates: none of them is accepted but the last one, which is the item
that it finds; if it finds none, all are taken. -/
structure Taken (test : Option (α → Bool)) (taken left : List α) (found : Option α) : Prop where
  accepted : eager test taken = found.toList
  last : ∀ a, found = some a → taken.getLast? = some a
  all : found = none → left = []

/-- **One `next`** asks about what it takes, each candidate once, and leaves the others. -/
theorem run_next_noted (test : Option (α → Bool)) (candidates log : List α) :
    ∃ taken left found, candidates = taken ++ left ∧ Taken test taken left found ∧
      (noted test candidates).next.run log =
        ((found, noted test left), log ++ asked test taken) := by
  induction candidates generalizing log with
  | nil =>
    refine ⟨[], [], none, rfl, ⟨by cases test <;> simp, nofun, fun _ => rfl⟩, ?_⟩
    cases test <;> simp [noted, next, nextFrom, asked] <;> rfl
  | cons a others ih =>
    cases test with
    | none =>
      refine ⟨[a], others, some a, rfl, ⟨rfl, ?_, nofun⟩, ?_⟩
      · rintro _ ⟨⟩
        rfl
      · simp only [asked, Option.isSome_none, Bool.false_eq_true, if_false, List.append_nil]
        rfl
    | some t =>
      -- The test is made, and what follows depends on its answer.
      have hstep : (noted (some t) (a :: others)).next.run log =
          if t a then ((some a, noted (some t) others), log ++ [a])
          else (noted (some t) others).next.run (log ++ [a]) := by
        cases h : t a with
        | false => simp [noted, next, nextFrom, Predicate.noting, h]
        | true =>
          simp [noted, next, nextFrom, Predicate.noting, h]
          rfl
      cases h : t a with
      | true =>
        refine ⟨[a], others, some a, rfl, ⟨by simp [h], ?_, nofun⟩, ?_⟩
        · rintro _ ⟨⟩
          rfl
        · rw [hstep, if_pos h]
          rfl
      | false =>
        obtain ⟨taken, left, found, rfl, htaken, hrun⟩ := ih (log ++ [a])
        refine ⟨a :: taken, left, found, rfl, ⟨?_, ?_, htaken.all⟩, ?_⟩
        · simpa [h] using htaken.accepted
        · intro b hb
          simp [List.getLast?_cons, htaken.last b hb]
        · rw [hstep, if_neg (by simp [h]), hrun]
          simp [asked]

/-- What calls have done to candidates. -/
structure Progress (test : Option (α → Bool)) (candidates consumed left : List α)
    (answers : List (Answer α)) (log : List α) : Prop where
  /-- The first candidates are consumed. -/
  split : candidates = consumed ++ left
  /-- Each of them has been asked about once, in their order. -/
  asked_once : log = asked test consumed
  /-- The items are those that filtering at once keeps of them. -/
  yielded_eager : yielded answers = eager test consumed
  /-- Behind an item nothing is consumed. -/
  item_last : ∀ a, answers.getLast? = some (.item (some a)) → consumed.getLast? = some a
  /-- Where no item is found, none is left. -/
  exhausted : Answer.item none ∈ answers → left = []
  /-- Between the bounds lies the number of the items that were still to come. -/
  bounds : ∀ before least greatest after, answers = before ++ .bounds least greatest :: after →
    least ≤ (yielded after ++ eager test left).length ∧
      (yielded after ++ eager test left).length ≤ greatest

theorem Progress.start (test : Option (α → Bool)) (candidates : List α) :
    Progress test candidates [] candidates [] [] where
  split := rfl
  asked_once := by cases test <;> rfl
  yielded_eager := by cases test <;> simp
  item_last := nofun
  exhausted := nofun
  bounds := by simp

/-- Bounds that were announced hold on, as one more answer and what is left behind it are what was
left before; the last answer may announce others. -/
theorem Progress.bounds_concat {test : Option (α → Bool)} {candidates consumed left left' : List α}
    {answers : List (Answer α)} {log : List α} {last : Answer α}
    (progress : Progress test candidates consumed left answers log)
    (same : eager test left = last.item?.toList ++ eager test left')
    (announced : ∀ least greatest, last = .bounds least greatest →
      least ≤ (eager test left').length ∧ (eager test left').length ≤ greatest)
    {before after : List (Answer α)} {least greatest : Nat}
    (h : answers ++ [last] = before ++ .bounds least greatest :: after) :
    least ≤ (yielded after ++ eager test left').length ∧
      (yielded after ++ eager test left').length ≤ greatest := by
  rcases List.eq_nil_or_concat after with rfl | ⟨earlier, other, rfl⟩
  · obtain ⟨-, hlast⟩ := List.append_inj' h rfl
    exact announced least greatest (List.singleton_inj.1 hlast)
  · obtain ⟨rfl, hlast⟩ := List.append_inj' (h.trans (by simp : _ =
      (before ++ .bounds least greatest :: earlier) ++ [other])) rfl
    obtain rfl := List.singleton_inj.1 hlast
    have hearlier := progress.bounds before least greatest earlier rfl
    rw [same, ← List.append_assoc] at hearlier
    simpa using hearlier

/-- **One more call makes progress.** -/
theorem Progress.answer {test : Option (α → Bool)} {candidates consumed left : List α}
    {answers : List (Answer α)} {log : List α}
    (progress : Progress test candidates consumed left answers log) (call : Call) :
    ∃ consumed' left' last log',
      ((noted test left).answer call).run log = ((last, noted test left'), log') ∧
      Progress test candidates consumed' left' (answers ++ [last]) log' := by
  cases call with
  | sizeHint =>
    refine ⟨consumed, left, _, log, rfl, progress.split, progress.asked_once, ?_, ?_, ?_, ?_⟩
    · simpa [Answer.item?] using progress.yielded_eager
    · simp
    · simpa using progress.exhausted
    · intro before least greatest after h
      refine progress.bounds_concat rfl ?_ h
      rintro _ _ ⟨⟩
      cases test with
      | none => simp [noted, Sift.sizeHint]
      | some t => exact ⟨Nat.zero_le _, length_eager_le (some t) left⟩
  | next =>
    obtain ⟨taken, left', found, rfl, htaken, hrun⟩ := run_next_noted test left log
    have hanswer : ((noted test (taken ++ left')).answer .next).run log =
        ((.item found, noted test left'), log ++ asked test taken) := by
      simp only [Sift.answer, StateT.run_bind, hrun]
      rfl
    refine ⟨consumed ++ taken, left', _, _, hanswer, ?_, ?_, ?_, ?_, ?_, ?_⟩
    · rw [progress.split, List.append_assoc]
    · rw [progress.asked_once, asked_append]
    · simp [progress.yielded_eager, htaken.accepted, Answer.item?]
    · intro a h
      obtain rfl : found = some a := by simpa using h
      simp [List.getLast?_append, htaken.last a rfl]
    · intro h
      rcases List.mem_append.1 h with hearlier | hlast
      · exact (List.append_eq_nil_iff.1 (progress.exhausted hearlier)).2
      · obtain rfl : found = none := by simpa [eq_comm] using hlast
        exact htaken.all rfl
    · intro before least greatest after h
      refine progress.bounds_concat ?_ (by rintro _ _ ⟨⟩) h
      rw [eager_append, htaken.accepted]
      rfl

/-- **Calls make progress**, from any moment on. -/
theorem Progress.run {test : Option (α → Bool)} {candidates consumed left : List α}
    {answers : List (Answer α)} {log : List α}
    (progress : Progress test candidates consumed left answers log) (calls : List Call) :
    ∃ consumed' left' more log',
      ((noted test left).run calls).run log = ((more, noted test left'), log') ∧
      Progress test candidates consumed' left' (answers ++ more) log' := by
  induction calls generalizing consumed left answers log with
  | nil => exact ⟨consumed, left, [], log, rfl, by rwa [List.append_nil]⟩
  | cons call calls ih =>
    obtain ⟨consumed₁, left₁, first, log₁, hfirst, hprogress⟩ := progress.answer call
    obtain ⟨consumed', left', more, log', hmore, hdone⟩ := ih hprogress
    refine ⟨consumed', left', first :: more, log', ?_, by simpa using hdone⟩
    simp only [Sift.run, StateT.run_bind, hfirst]
    exact congrArg (fun done => ((first :: done.1.1, done.1.2), done.2)) hmore

/-- **Filtering on demand agrees with filtering at once, at every moment.** Whatever effects the
tests have, calls and then the rest are the computation that filters at once, and so is taking one
item after the other. Without other effects, after any calls: what was yielded is the start of what
filtering at once keeps; the candidates that were consumed have been asked about once each, in their
order, and the last of them is the item that was found last; the bounds that were announced held;
and the rest, counted, collected or taken item by item, is the rest of what filtering at once
keeps. -/
theorem follows_keep {m : Type → Type} [Monad m] [LawfulMonad m] {α : Type} (candidates : List α)
    (calls : List Call) :
    (∀ predicate : Option (Predicate m α),
      (do
        let (answers, left) ← (⟨predicate, candidates⟩ : Sift m α).run calls
        let kept ← left.rest
        pure (yielded answers ++ kept)) = keep candidates predicate ∧
      ∀ {most : Nat}, candidates.length < most →
        (⟨predicate, candidates⟩ : Sift m α).pull most = (do
          let kept ← keep candidates predicate
          pure (kept, ⟨predicate, []⟩))) ∧
    ∀ test : Option (α → Bool), ∃ consumed left answers log,
      ((noted test candidates).run calls).run [] = ((answers, noted test left), log) ∧
      Progress test candidates consumed left answers log ∧
      eager test candidates = yielded answers ++ eager test left ∧
      (noted test left).rest.run log = (eager test left, log ++ asked test left) ∧
      (noted test left).count.run log = ((eager test left).length, log ++ asked test left) ∧
      ∀ {most : Nat}, left.length < most → ((noted test left).pull most).run log =
        ((eager test left, noted test []), log ++ asked test left) := by
  refine ⟨fun predicate => ⟨run_then_rest _ calls, fun enough => pull_eq_rest _ enough⟩, ?_⟩
  intro test
  obtain ⟨consumed, left, answers, log, hrun, hprogress⟩ :=
    (Progress.start test candidates).run calls
  rw [List.nil_append] at hprogress
  have hrest := run_rest_noted test left log
  refine ⟨consumed, left, answers, log, hrun, hprogress, ?_, hrest, ?_, ?_⟩
  · rw [hprogress.split, eager_append, hprogress.yielded_eager]
  · simp only [count, StateT.run_bind, hrest]
    rfl
  · intro most enough
    simp only [pull_eq_rest (noted test left) enough, StateT.run_bind, hrest]
    rfl

/-- Accepts every other candidate. -/
def everyOther : Predicate (StateM Nat) Nat :=
  ⟨fun _ => do
    modify (· + 1)
    pure ((← get) % 2 == 1)⟩

theorem follows_keep_even :
    LawfulMonad (StateM Nat) ∧
    (do
      let (answers, left) ←
        (⟨some everyOther, [6, 1, 4, 3, 8]⟩ : Sift (StateM Nat) Nat).run [.next, .next]
      let kept ← left.rest
      pure (yielded answers ++ kept)) = keep [6, 1, 4, 3, 8] (some everyOther) ∧
    ((keep [6, 1, 4, 3, 8] (some everyOther)).run 0).1 = [6, 4, 8] ∧
    ((noted (some (· % 2 == 0)) [6, 1, 4, 3, 8]).run [.next, .sizeHint, .next]).run [] =
      (([.item (some 6), .bounds 0 4, .item (some 4)], noted (some (· % 2 == 0)) [3, 8]),
        [6, 1, 4]) ∧
    eager (some (· % 2 == 0)) [6, 1, 4, 3, 8] = [6, 4] ++ eager (some (· % 2 == 0)) [3, 8] := by
  have hrun : ((noted (some (· % 2 == 0)) [6, 1, 4, 3, 8]).run [.next, .sizeHint, .next]).run [] =
      (([.item (some 6), .bounds 0 4, .item (some 4)], noted (some (· % 2 == 0)) [3, 8]),
        [6, 1, 4]) := rfl
  obtain ⟨heffects, -⟩ := follows_keep (m := StateM Nat) [6, 1, 4, 3, 8] [.next, .next]
  obtain ⟨-, hpure⟩ := follows_keep (m := StateM Nat) [6, 1, 4, 3, 8] [.next, .sizeHint, .next]
  obtain ⟨consumed, left, answers, log, hsame, -, hsplit, -⟩ := hpure (some (· % 2 == 0))
  rw [hrun] at hsame
  cases hsame
  exact ⟨inferInstance, (heffects _).1, rfl, hrun, hsplit⟩

end Sift

end BracketFilter

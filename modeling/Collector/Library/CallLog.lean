import Mathlib.Data.List.Basic

/-!
# Logs of accepted and refused calls

A log lists calls in order. Each call has a key, a time and a verdict. `Spaced`
says that accepted calls of one key stand a given width apart, and `Sourced`
that every refusal has an accepted call of the same key before it. The second is
a case of `Preceded`, where entries of one kind come after entries of another.
Both are kept by one more call that agrees with the calls before it.
-/

namespace CallLog

universe u v
variable {α : Type u} {κ : Type v}

/-- A call follows an earlier accepted call of its key within the width only if
it is refused. -/
def Spaced (key : α → κ) (time : α → Nat) (accepted : α → Bool) (width : Nat)
    (log : List α) : Prop :=
  log.Pairwise fun earlier later =>
    accepted earlier = true → key earlier = key later → time later < time earlier + width →
      accepted later = false

/-- Every entry is as the entries before it allow. -/
def Justified (allows : List α → α → Prop) (log : List α) : Prop :=
  ∀ before entry after, log = before ++ entry :: after → allows before entry

/-- Every entry in need has an entry before it that serves it. -/
def Preceded (needs : α → Prop) (serves : α → α → Prop) (log : List α) : Prop :=
  ∀ before entry after, log = before ++ entry :: after → needs entry →
    ∃ earlier ∈ before, serves earlier entry

/-- Every refused call has an accepted call of its key before it. -/
def Sourced (key : α → κ) (accepted : α → Bool) (log : List α) : Prop :=
  Preceded (fun call => accepted call = false)
    (fun earlier refused => accepted earlier = true ∧ key earlier = key refused) log

theorem spaced_nil (key : α → κ) (time : α → Nat) (accepted : α → Bool) (width : Nat) :
    Spaced key time accepted width [] := List.Pairwise.nil

theorem preceded_nil (needs : α → Prop) (serves : α → α → Prop) : Preceded needs serves [] := by
  intro before entry after split
  exact absurd split.symm (by simp)

/-- One more call keeps the spacing when every accepted call within the width
has another key or the new call is refused. -/
theorem spaced_concat {key : α → κ} {time : α → Nat} {accepted : α → Bool} {width : Nat}
    {log : List α} (call : α) (spaced : Spaced key time accepted width log)
    (agrees : ∀ earlier ∈ log, accepted earlier = true → key earlier = key call →
      time call < time earlier + width → accepted call = false) :
    Spaced key time accepted width (log ++ [call]) := by
  apply List.pairwise_append.mpr
  refine ⟨spaced, List.pairwise_singleton _ _, ?_⟩
  intro earlier member later isCall
  obtain rfl := List.mem_singleton.mp isCall
  exact agrees earlier member

/-- An entry of a longer log is the last one or an entry of the log before. -/
theorem split_concat {log before after : List α} {last entry : α}
    (split : log ++ [last] = before ++ entry :: after) :
    (log = before ∧ last = entry ∧ after = []) ∨
      ∃ front, log = before ++ entry :: front ∧ after = front ++ [last] := by
  rcases List.eq_nil_or_concat after with ended | ⟨front, final, rfl⟩
  · subst ended
    obtain ⟨same, isLast⟩ := List.append_inj' split rfl
    exact Or.inl ⟨same, List.head_eq_of_cons_eq isLast, rfl⟩
  · have regrouped : log ++ [last] = (before ++ entry :: front) ++ [final] := by
      rw [split, List.append_assoc, List.cons_append, List.concat_eq_append]
    obtain ⟨inside, isLast⟩ := List.append_inj' regrouped rfl
    obtain rfl : last = final := List.head_eq_of_cons_eq isLast
    exact Or.inr ⟨front, inside, List.concat_eq_append⟩

theorem justified_nil (allows : List α → α → Prop) : Justified allows [] := by
  intro before entry after split
  exact absurd split.symm (by simp)

/-- One more entry that the log allows. -/
theorem justified_concat {allows : List α → α → Prop} {log : List α} {entry : α}
    (justified : Justified allows log) (allowed : allows log entry) :
    Justified allows (log ++ [entry]) := by
  intro before later after split
  rcases split_concat split with ⟨rfl, rfl, -⟩ | ⟨front, inside, -⟩
  · exact allowed
  · exact justified before later front inside

/-- One more entry keeps the order when it is not in need or is served. -/
theorem preceded_concat {needs : α → Prop} {serves : α → α → Prop} {log : List α} (entry : α)
    (preceded : Preceded needs serves log)
    (served : needs entry → ∃ earlier ∈ log, serves earlier entry) :
    Preceded needs serves (log ++ [entry]) := by
  intro before later after split inNeed
  rcases split_concat split with ⟨rfl, rfl, -⟩ | ⟨front, inside, -⟩
  · exact served inNeed
  · exact preceded before later front inside inNeed

/-- Times that are a width apart leave room for so many of them only. -/
theorem length_mul_le {time : α → Nat} {width last : Nat} {first : α} {rest : List α}
    (apart : (first :: rest).Pairwise fun earlier later => time earlier + width ≤ time later)
    (bounded : ∀ entry ∈ first :: rest, time entry ≤ last) :
    time first + rest.length * width ≤ last := by
  induction rest generalizing first with
  | nil =>
    have within := bounded first List.mem_cons_self
    simpa using within
  | cons next rest inductionHypothesis =>
    obtain ⟨ahead, others⟩ := List.pairwise_cons.mp apart
    have gap := ahead next List.mem_cons_self
    have later := inductionHypothesis others fun entry member =>
      bounded entry (List.mem_cons_of_mem first member)
    rw [List.length_cons, Nat.succ_mul]
    omega

/-- Between two instants only so many calls of one key are accepted. -/
theorem Spaced.count_mul_le [DecidableEq κ] {key : α → κ} {time : α → Nat} {accepted : α → Bool}
    {width start last : Nat} {log : List α} (spaced : Spaced key time accepted width log)
    (since : ∀ call ∈ log, start ≤ time call) (bounded : ∀ call ∈ log, time call ≤ last)
    (tested : κ) :
    (log.countP (fun call => accepted call = true ∧ key call = tested) - 1) * width ≤
      last - start := by
  have apart : (log.filter fun call => accepted call = true ∧ key call = tested).Pairwise
      fun earlier later => time earlier + width ≤ time later := by
    apply (spaced.filter _).imp_of_mem
    intro earlier later inEarlier inLater close
    obtain ⟨_, first⟩ := List.mem_filter.mp inEarlier
    obtain ⟨_, second⟩ := List.mem_filter.mp inLater
    obtain ⟨earlierAccepted, earlierKey⟩ := of_decide_eq_true first
    obtain ⟨laterAccepted, laterKey⟩ := of_decide_eq_true second
    by_contra near
    have refused := close earlierAccepted (earlierKey.trans laterKey.symm) (Nat.lt_of_not_le near)
    rw [laterAccepted] at refused
    cases refused
  rw [List.countP_eq_length_filter]
  cases chosen : log.filter fun call => accepted call = true ∧ key call = tested with
  | nil => simp
  | cons first rest =>
    have member {call : α} (inside : call ∈ first :: rest) : call ∈ log := by
      rw [← chosen] at inside
      exact (List.mem_filter.mp inside).1
    rw [chosen] at apart
    have room := length_mul_le apart fun call inside => bounded call (member inside)
    have begun := since first (member List.mem_cons_self)
    rw [List.length_cons, Nat.add_sub_cancel]
    omega

end CallLog

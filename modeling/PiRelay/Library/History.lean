import Mathlib.Data.List.Basic

/-! What happened in a run, the latest entry first. An entry is justified by those before
it, and a mark in the history stands for as long as the entries after it keep it. -/
namespace Library

namespace History

universe u

variable {Entry : Type u}

/-- Every entry was justified when it was made. -/
def Sound (justified : List Entry → Entry → Prop) : List Entry → Prop
  | [] => True
  | entry :: past => justified past entry ∧ Sound justified past

/-- Every entry of a sound history was justified by its own past. -/
theorem Sound.justified_at {justified : List Entry → Entry → Prop} {later past : List Entry}
    {entry : Entry} (sound : Sound justified (later ++ entry :: past)) : justified past entry := by
  induction later with
  | nil => exact sound.1
  | cons _ _ ih => exact ih sound.2

/-- An entry with the mark, and after it only entries that keep what it stands for. -/
def Since (keeps : Entry → Prop) (marks : List Entry → Entry → Prop) (history : List Entry) :
    Prop :=
  ∃ later entry past, history = later ++ entry :: past ∧ marks past entry ∧
    ∀ between ∈ later, keeps between

variable {keeps : Entry → Prop} {marks : List Entry → Entry → Prop} {history : List Entry}
  {entry : Entry}

theorem Since.of_marks (marked : marks history entry) : Since keeps marks (entry :: history) :=
  ⟨[], entry, history, rfl, marked, by simp⟩

theorem Since.next (since : Since keeps marks history) (kept : keeps entry) :
    Since keeps marks (entry :: history) := by
  obtain ⟨later, marked, past, rfl, isMarked, keepsLater⟩ := since
  exact ⟨entry :: later, marked, past, rfl, isMarked, List.forall_mem_cons.mpr ⟨kept, keepsLater⟩⟩

/-- What has held since an entry held at each point from there on. -/
theorem Since.before {later past : List Entry} (since : Since keeps marks (later ++ past))
    (unmarked : ∀ past, ∀ entry ∈ later, ¬ marks past entry) : Since keeps marks past := by
  induction later with
  | nil => exact since
  | cons _ _ ih =>
    obtain ⟨between, marked, early, split, isMarked, keepsLater⟩ := since
    cases between with
    | nil =>
      cases split
      exact absurd isMarked (unmarked _ _ (.head _))
    | cons _ between =>
      obtain ⟨rfl, later⟩ := List.cons.inj split
      refine ih ⟨between, marked, early, later, isMarked, ?_⟩ ?_
      · exact (List.forall_mem_cons.mp keepsLater).2
      · intro past entry mem
        exact unmarked past entry (.tail _ mem)

end History

end Library

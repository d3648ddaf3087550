import PiRelay.AgentTools.PatchFiles
import PiRelay.Library.Fallible

/-! What the hunks of an update make of the text of a file. -/
namespace PiRelay.AgentTools

open List
open Library (bind_eq_ok)

variable {old new content result edited before : Text} {hunks : List LineHunk}

/-- A text at whose end a line can start. -/
def AtLineStart (text : Text) : Prop := text = [] ∨ text.getLast? = some '\n'

/-- After the text before it, the content splits at line starts around the old lines of the hunks,
in their order; the result has the new lines in their places. -/
def Patched : Text → Text → List LineHunk → Text → Prop
  | _, content, [], result => result = content
  | before, content, hunk :: later, result =>
    ∃ kept rest edited, content = kept ++ hunk.old ++ rest ∧
      AtLineStart (before ++ kept) ∧ AtLineStart (before ++ kept ++ hunk.old) ∧
      result = kept ++ hunk.new ++ edited ∧
      Patched (before ++ kept ++ hunk.old) rest later edited

/-- The first place of the old lines in a text. -/
def FirstAt (old content before after : Text) : Prop :=
  content = before ++ old ++ after ∧ ∀ index < before.length, ¬ old <+: content.drop index

/-- The first place of each hunk in the text as edited so far is at the start of a line, and not
before the last edit. -/
def FoundInOrder : Text → Text → List LineHunk → Prop
  | _, _, [] => True
  | edited, content, hunk :: later =>
    ∀ before after, FirstAt hunk.old (edited ++ content) before after →
      ∃ kept, before = edited ++ kept ∧ AtLineStart kept ∧
        FoundInOrder (before ++ hunk.new) after later

theorem AtLineStart.append {text : Text} (first : AtLineStart before) (second : AtLineStart text) :
    AtLineStart (before ++ text) := by
  obtain rfl | ends := second
  · rwa [append_nil]
  · exact .inr (by rw [getLast?_append, ends]; rfl)

theorem AtLineStart.line (text content : Text) : AtLineStart (text ++ content ++ ['\n']) :=
  .inr getLast?_concat

theorem pushHunk_ended {lines : HunkLines} (ended : ∀ hunk ∈ lines.hunks, AtLineStart hunk.old)
    (last : AtLineStart lines.old) :
    (∀ hunk ∈ (pushHunk lines).hunks, AtLineStart hunk.old) ∧ AtLineStart (pushHunk lines).old := by
  rw [pushHunk]
  split
  · exact ⟨ended, last⟩
  · refine ⟨forall_mem_append.mpr ⟨ended, ?_⟩, .inl rfl⟩
    intro hunk isHunk
    cases mem_singleton.mp isHunk
    exact last

theorem updateLine_ended {lines after : HunkLines} {line : Text}
    (ended : ∀ hunk ∈ lines.hunks, AtLineStart hunk.old) (last : AtLineStart lines.old)
    (read : updateLine lines line = .ok after) :
    (∀ hunk ∈ after.hunks, AtLineStart hunk.old) ∧ AtLineStart after.old := by
  unfold updateLine at read
  split at read
  · cases read
    exact pushHunk_ended ended last
  · split at read
    · cases read
      exact ⟨ended, last⟩
    · split at read
      · cases read
      · cases read
        exact ⟨ended, .line lines.old _⟩
      · cases read
        exact ⟨ended, .line lines.old _⟩
      · cases read
        exact ⟨ended, last⟩
      · cases read

variable {body : List Text}

theorem updateLines_ended {lines after : HunkLines}
    (ended : ∀ hunk ∈ lines.hunks, AtLineStart hunk.old) (last : AtLineStart lines.old)
    (read : body.foldlM updateLine lines = .ok after) :
    (∀ hunk ∈ after.hunks, AtLineStart hunk.old) ∧ AtLineStart after.old := by
  induction body generalizing lines with
  | nil =>
    cases read
    exact ⟨ended, last⟩
  | cons _ _ ih =>
    obtain ⟨_, isMiddle, read⟩ := bind_eq_ok.mp read
    obtain ⟨ended, last⟩ := updateLine_ended ended last isMiddle
    exact ih ended last read

variable {path : Text} {moveTo : Option Text}

/-- The old lines of a hunk are whole lines. -/
theorem parseUpdate_ended {op : PatchOp} (parsed : parseUpdate path moveTo body = .ok op) :
    ∃ hunks, op = .update path moveTo hunks ∧ ∀ hunk ∈ hunks, AtLineStart hunk.old := by
  obtain ⟨_, read, parsed⟩ := bind_eq_ok.mp parsed
  obtain ⟨ended, last⟩ := updateLines_ended (fun _ none => by cases none) (.inl rfl) read
  simp only at parsed
  split at parsed
  · cases parsed
  · cases parsed
    exact ⟨_, rfl, (pushHunk_ended ended last).1⟩

theorem parseAdd_add {op : PatchOp}
    (parsed : parseAdd path body = .ok op) : ∃ lines, op = .add path lines := by
  obtain ⟨lines, -, parsed⟩ := bind_eq_ok.mp parsed
  split at parsed
  · cases parsed
  · cases parsed
    exact ⟨lines, rfl⟩

/-- The old lines of a parsed hunk end where a line can start. -/
theorem parseOps_ended {lines : List Text} {ops : List PatchOp} (parsed : parseOps lines = .ok ops)
    (listed : .update path moveTo hunks ∈ ops) : ∀ hunk ∈ hunks, AtLineStart hunk.old := by
  induction lines using parseOps.induct generalizing ops with
  | case1 =>
    rw [parseOps] at parsed
    cases parsed
  | case2 =>
    rw [parseOps, if_pos rfl, if_pos rfl] at parsed
    cases parsed
    cases listed
  | case3 _ more =>
    rw [parseOps, if_pos rfl, if_neg more] at parsed
    cases parsed
  | case4 _ _ notEnd _ isAdd ih =>
    rw [parseOps, if_neg notEnd, isAdd] at parsed
    obtain ⟨op, isOp, parsed⟩ := bind_eq_ok.mp parsed
    obtain ⟨others, isOthers, parsed⟩ := bind_eq_ok.mp parsed
    cases parsed
    obtain ⟨lines, rfl⟩ := parseAdd_add isOp
    exact ih isOthers (mem_of_ne_of_mem PatchOp.noConfusion listed)
  | case5 _ _ notEnd _ isDelete notAdd ih =>
    rw [parseOps, if_neg notEnd, isDelete, notAdd] at parsed
    obtain ⟨others, isOthers, parsed⟩ := bind_eq_ok.mp parsed
    cases parsed
    exact ih isOthers (mem_of_ne_of_mem PatchOp.noConfusion listed)
  | case6 _ _ notEnd _ isUpdate notDelete notAdd =>
    rename_i ih
    rw [parseOps, if_neg notEnd, isUpdate, notDelete, notAdd] at parsed
    obtain ⟨op, isOp, parsed⟩ := bind_eq_ok.mp parsed
    obtain ⟨others, isOthers, parsed⟩ := bind_eq_ok.mp parsed
    cases parsed
    obtain ⟨_, rfl, ended⟩ := parseUpdate_ended isOp
    obtain same | later := mem_cons.mp listed
    · cases same
      exact ended
    · exact ih isOthers later
  | case7 _ _ notEnd notUpdate notDelete notAdd =>
    rw [parseOps, if_neg notEnd, notUpdate, notDelete, notAdd] at parsed
    cases parsed

theorem parsePatch_ended {input : Text} {ops : List PatchOp} (parsed : parsePatch input = .ok ops)
    (listed : .update path moveTo hunks ∈ ops) : ∀ hunk ∈ hunks, AtLineStart hunk.old := by
  rw [parsePatch] at parsed
  split at parsed
  · split at parsed
    · exact parseOps_ended parsed listed
    · cases parsed
  · cases parsed

/-- What is replaced is the first occurrence. -/
theorem replaceFirst_eq_some (found : replaceFirst old new content = some result) :
    ∃ before after, FirstAt old content before after ∧ result = before ++ new ++ after := by
  induction content generalizing result with
  | nil =>
    rw [replaceFirst] at found
    split at found
    · rename_i empty
      cases found
      exact ⟨[], [], ⟨by rw [empty]; rfl, nofun⟩, by simp⟩
    · cases found
  | cons char _ ih =>
    rw [replaceFirst] at found
    split at found
    · rename_i here
      cases found
      obtain ⟨after, isContent⟩ := isPrefixOf_iff_prefix.mp here
      refine ⟨[], after, ⟨isContent.symm, nofun⟩, ?_⟩
      rw [← isContent, drop_left]
      rfl
    · rename_i notHere
      obtain ⟨_, isEdited, rfl⟩ := Option.map_eq_some_iff.mp found
      obtain ⟨before, after, ⟨isRest, first⟩, rfl⟩ := ih isEdited
      refine ⟨char :: before, after, ⟨by rw [isRest]; rfl, ?_⟩, rfl⟩
      intro index within
      cases index with
      | zero => exact fun here => notHere ( isPrefixOf_iff_prefix.mpr here)
      | succ index => exact first index (Nat.lt_of_succ_lt_succ within)

theorem applyHunk_eq_ok {hunk : LineHunk}
    (applied : applyHunk path content hunk = .ok result) : hunk.old ≠ [] ∧
      ∃ before after, FirstAt hunk.old content before after ∧
        result = before ++ hunk.new ++ after := by
  rw [applyHunk] at applied
  split at applied
  · cases applied
  · rename_i some
    split at applied
    · rename_i found
      cases applied
      exact ⟨some, replaceFirst_eq_some found⟩
    · cases applied

/-- Each hunk is found in what the edits left of the original text. -/
theorem applyHunks_patched (ended : ∀ hunk ∈ hunks, AtLineStart hunk.old)
    (found : FoundInOrder edited content hunks) (start : AtLineStart before)
    (applied : hunks.foldlM (applyHunk path) (edited ++ content) = .ok result) :
    ∃ later, result = edited ++ later ∧ Patched before content hunks later := by
  induction hunks generalizing before edited content with
  | nil =>
    cases applied
    exact ⟨content, rfl, rfl⟩
  | cons hunk _ ih =>
    obtain ⟨ownEnded, ended⟩ := forall_mem_cons.mp ended
    obtain ⟨_, isMiddle, applied⟩ := bind_eq_ok.mp applied
    obtain ⟨-, head, after, first, rfl⟩ := applyHunk_eq_ok isMiddle
    obtain ⟨kept, rfl, atStart, found⟩ := found head after first
    have isContent : content = kept ++ hunk.old ++ after := by
      have split := first.1
      rw [append_assoc, append_assoc] at split
      rw [append_cancel_left split, append_assoc]
    have oldStart := (start.append atStart).append ownEnded
    obtain ⟨later, rfl, patched⟩ := ih ended found oldStart applied
    refine ⟨kept ++ hunk.new ++ later, by simp only [append_assoc], ?_⟩
    exact ⟨kept, after, later, isContent, start.append atStart, oldStart, rfl, patched⟩

variable {State : Type} {system : FileSystem State} {cwd : Text} {state after : State}

/-- An update whose hunks are found at line starts and in order is a patch of the text of its
file. -/
theorem update_patches (system : FileSystem State) (cwd input : Text) (ops : List PatchOp)
    (path : Text) (moveTo : Option Text) (hunks : List LineHunk) (state after : State)
    (content : Text) (change : FileChange) (parsed : parsePatch input = .ok ops)
    (listed : .update path moveTo hunks ∈ ops)
    (read : system.readToString state (workspacePath cwd path) = .ok content)
    (found : FoundInOrder [] content hunks)
    (applied : system.applyOp cwd state (.update path moveTo hunks) = (after, .ok change)) :
    ∃ result written, Patched [] content hunks result ∧
      system.writeFile state (workspacePath cwd (moveTo.getD path)) result = (written, .ok ()) := by
  obtain ⟨result, written, isResult, wrote, -⟩ := FileSystem.applyUpdate_ok applied
  rw [FileSystem.updated, read] at isResult
  obtain ⟨later, rfl, patched⟩ :=
    applyHunks_patched (parsePatch_ended parsed listed) found (.inl rfl) isResult
  exact ⟨_, written, patched, wrote⟩

def lineBPatch : Text :=
  "*** Begin Patch\n*** Update File: f\n@@\n-b\n+c\n*** End Patch\n".toList

def oneFile (text : String) (path : Text) : Option Text :=
  if path = ['f'] then some text.toList else none

def lineB : List LineHunk := [{ old := ['b', '\n'], new := ['c', '\n'] }]

theorem lineBPatch_parsed : parsePatch lineBPatch = .ok [.update ['f'] none lineB] := by
  decide +kernel

theorem FirstAt.unique {after otherBefore otherAfter : Text} (first : FirstAt old content before after)
    (other : FirstAt old content otherBefore otherAfter) :
    otherBefore = before ∧ otherAfter = after := by
  have here : ∀ {before after : Text}, content = before ++ old ++ after →
      old <+: content.drop before.length := by
    rintro before after rfl
    rw [append_assoc, drop_left]
    exact prefix_append _ _
  have same : otherBefore.length = before.length := by
    rcases Nat.lt_trichotomy otherBefore.length before.length with less | same | more
    · exact absurd (here other.1) (first.2 _ less)
    · exact same
    · exact absurd (here first.1) (other.2 _ more)
  have split := other.1.symm.trans first.1
  rw [append_assoc, append_assoc] at split
  obtain ⟨sameBefore, sameRest⟩ := append_inj split same
  exact ⟨sameBefore, append_cancel_left sameRest⟩

theorem FoundInOrder.hunk {hunk : LineHunk} {kept after : Text}
    (first : FirstAt hunk.old (edited ++ content) (edited ++ kept) after) (start : AtLineStart kept)
    (later : FoundInOrder (edited ++ kept ++ hunk.new) after hunks) :
    FoundInOrder edited content (hunk :: hunks) := by
  intro before after' found
  obtain ⟨rfl, rfl⟩ := first.unique found
  exact ⟨kept, rfl, start, later⟩

/-- Two lines of five are changed, each below a line of context. -/
def twoHunks : List LineHunk :=
  [{ old := "a\nb\n".toList, new := "a\nB\n".toList },
    { old := "d\ne\n".toList, new := "d\nE\n".toList }]

def twoHunksPatch : Text :=
  "*** Begin Patch\n*** Update File: f\n@@\n a\n-b\n+B\n@@\n d\n-e\n+E\n*** End Patch\n".toList

theorem update_patches_two_hunks : ∃ result written,
    Patched [] "a\nb\nc\nd\ne\n".toList twoHunks result ∧
      FileSystem.inMemory.writeFile (oneFile "a\nb\nc\nd\ne\n") (workspacePath [] ['f']) result =
        (written, .ok ()) := by
  have found : FoundInOrder [] "a\nb\nc\nd\ne\n".toList twoHunks := by
    have first : FirstAt "a\nb\n".toList "a\nb\nc\nd\ne\n".toList [] "c\nd\ne\n".toList :=
      ⟨rfl, by decide⟩
    have second : FirstAt "d\ne\n".toList "a\nB\nc\nd\ne\n".toList "a\nB\nc\n".toList [] :=
      ⟨rfl, by decide⟩
    exact .hunk first (.inl rfl) (.hunk second (.inr rfl) trivial)
  have parsed : parsePatch twoHunksPatch = .ok [.update ['f'] none twoHunks] := by
    decide +kernel
  exact update_patches FileSystem.inMemory [] twoHunksPatch _ ['f'] none twoHunks
    (oneFile "a\nb\nc\nd\ne\n") _ _ _ parsed (.head _) rfl found rfl

/-- The lines to remove are found at the end of a longer line. -/
theorem hunk_inside_line : ¬ ∀ (State : Type) (system : FileSystem State) (cwd input : Text)
    (ops : List PatchOp) (path : Text) (moveTo : Option Text) (hunks : List LineHunk)
    (state after : State) (content : Text) (change : FileChange),
    parsePatch input = .ok ops → .update path moveTo hunks ∈ ops →
    system.readToString state (workspacePath cwd path) = .ok content →
    system.applyOp cwd state (.update path moveTo hunks) = (after, .ok change) →
    ∃ result written, Patched [] content hunks result ∧
      system.writeFile state (workspacePath cwd (moveTo.getD path)) result =
        (written, .ok ()) := by
  intro always
  obtain ⟨result, -, patched, -⟩ := always _ FileSystem.inMemory [] lineBPatch _ ['f'] none lineB
    (oneFile "ab\n") _ _ _ lineBPatch_parsed (.head _) rfl rfl
  obtain ⟨kept, _, -, isText, atStart, -⟩ := patched
  cases kept with
  | nil => cases isText
  | cons _ kept =>
    cases kept with
    | nil =>
      cases isText
      obtain empty | ends := atStart
      · cases empty
      · cases ends
    | cons =>
      have lengths := congrArg List.length isText
      simp at lengths
      omega

end PiRelay.AgentTools

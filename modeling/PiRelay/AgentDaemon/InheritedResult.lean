import PiRelay.AgentDaemon.Handoff
import PiRelay.AgentStore.ContextFork

/-! Whose work the result of a subagent is. The branch of a forked subagent begins with
the conversation of its parent, and the result is read off the whole branch. Two runs
that differ in the inherited entries tell what of the result is inherited. -/
namespace PiRelay.Runtime

open AgentVocab Session Store List Option
open Library (ParentMap)

/-- What a daemon reports about a subagent. -/
structure ReportedResult where
  terminalStatus : Option String
  finalMessage : String
  outcome : Option String
deriving DecidableEq

def reportedResult (history : HistoryTree) : ReportedResult where
  terminalStatus := terminalSubagentStatus history
  finalMessage := extractFinalMessage history
  outcome := extractOutcome (extractFinalMessage history)

def assistantReply : TranscriptItem → Option String
  | .assistantMessage message => nonEmptyText message
  | _ => none

/-- The status of a branch that ends with the given item. -/
def leafStatus : TranscriptItem → Option String
  | .turnFinished _ outcome => some (subagentStatus outcome)
  | .compactionSummary _ => some "done"
  | _ => none

def isAssistantMessage : TranscriptItem → Bool
  | .assistantMessage _ => true
  | _ => false

def isCompactionSummary : TranscriptItem → Bool
  | .compactionSummary _ => true
  | _ => false

theorem extractFinalMessage_reverse (sessionId : String) (activeLeafId : Option EntryId)
    (path : List TranscriptStorageNode) :
    extractFinalMessage { sessionId, activeLeafId, entries := path.reverse } =
      (path.findSome? (assistantReply ·.item)).getD "" := by
  rw [extractFinalMessage, reverse_reverse]
  rfl

theorem terminalSubagentStatus_leaf (sessionId : String) (leaf : TranscriptStorageNode)
    (rest : List TranscriptStorageNode) :
    terminalSubagentStatus
        { sessionId, activeLeafId := some leaf.id, entries := (leaf :: rest).reverse } =
      leafStatus leaf.item := by
  rw [terminalSubagentStatus, reverse_reverse]
  simp only
  rw [find?_cons_of_pos (by simp)]
  rfl

inductive SameKind : TranscriptItem → TranscriptItem → Prop where
  | turnStarted (turnId other : TurnId) : SameKind (.turnStarted turnId) (.turnStarted other)
  | userMessage (message other : UserMessage) : SameKind (.userMessage message) (.userMessage other)
  | assistantMessage (message other : AssistantMessage) :
      SameKind (.assistantMessage message) (.assistantMessage other)
  | toolCallStarted (turnId otherId : TurnId) (toolCall other : ToolCall) :
      SameKind (.toolCallStarted turnId toolCall) (.toolCallStarted otherId other)
  | toolResult (result other : ToolResultMessage) : SameKind (.toolResult result) (.toolResult other)
  | turnFinished (turnId otherId : TurnId) (outcome other : TurnOutcome) :
      SameKind (.turnFinished turnId outcome) (.turnFinished otherId other)
  | compactionSummary (summary other : CompactionSummary) :
      SameKind (.compactionSummary summary) (.compactionSummary other)
  | daemonToolObservation (observation other : DaemonToolObservation) :
      SameKind (.daemonToolObservation observation) (.daemonToolObservation other)

theorem SameKind.refl (item : TranscriptItem) : SameKind item item := by
  cases item <;> constructor

/-- Another entry for each entry: of the same kind, under the same id, and shown in the
same place. -/
structure Replacement where
  change : TranscriptStorageNode → TranscriptStorageNode
  id : ∀ entry, (change entry).id = entry.id
  parentId : ∀ entry, (change entry).parentId = entry.parentId
  shown : ∀ entry, displayParentId (change entry) = displayParentId entry
  kind : ∀ entry, SameKind entry.item (change entry).item

namespace Replacement

variable (replacement : Replacement) (inherited : List EntryId)

/-- The entry that stands for the given one, which stays if it is not inherited. -/
def replace (entry : TranscriptStorageNode) : TranscriptStorageNode :=
  if inherited.contains entry.id then replacement.change entry else entry

def apply (session : SessionRow) : SessionRow :=
  { session with entries := session.entries.map (replacement.replace inherited) }

end Replacement

/-- The result of a subagent is its own. The same run over other inherited entries ends
with the same result, and if the subagent says nothing, then neither does its result. -/
structure ResultIsOwn (first : SessionRow) (steps : List TranscriptStep) (child : SessionRow) :
    Prop where
  independent : ∀ replacement : Replacement, ∃ other history otherHistory,
    (replacement.apply (entryIds first.entries) first).run (entryIds first.entries) steps =
        some other ∧
      child.activeBranch = .ok history ∧ other.activeBranch = .ok otherHistory ∧
      reportedResult otherHistory = reportedResult history
  silent : (∀ entry ∈ child.entries, entry.id ∉ entryIds first.entries →
      assistantReply entry.item = none) →
    ∀ history, child.activeBranch = .ok history →
      extractFinalMessage history = "" ∧ (reportedResult history).outcome = none

/-- The branch has a reply of the subagent's own or nothing inherited to take for one, and
its leaf is the subagent's own or the summary of a compaction. -/
structure SpeaksForItself (first child : SessionRow) : Prop where
  reply : (∃ history, child.activeBranch = .ok history ∧ ∃ entry ∈ history.entries,
      entry.id ∉ entryIds first.entries ∧ (assistantReply entry.item).isSome) ∨
    ∀ entry ∈ first.entries, isAssistantMessage entry.item = false
  leaf : ∀ entry ∈ first.entries, child.activeLeafId = some entry.id →
    isCompactionSummary entry.item = true

namespace Replacement

variable (replacement : Replacement) (inherited : List EntryId)

theorem replace_id (entry : TranscriptStorageNode) :
    (replacement.replace inherited entry).id = entry.id := by
  rw [replace]
  split
  · exact replacement.id entry
  · rfl

theorem replace_shown (entry : TranscriptStorageNode) :
    displayParentId (replacement.replace inherited entry) = displayParentId entry := by
  rw [replace]
  split
  · exact replacement.shown entry
  · rfl

theorem replace_inherited {entry : TranscriptStorageNode} (mem : entry.id ∈ inherited) :
    replacement.replace inherited entry = replacement.change entry :=
  if_pos (contains_iff_mem.mpr mem)

theorem replace_own {entry : TranscriptStorageNode} (own : entry.id ∉ inherited) :
    replacement.replace inherited entry = entry :=
  if_neg fun mem => own (contains_iff_mem.mp mem)

theorem replace_ids (entries : List TranscriptStorageNode) :
    entryIds (entries.map (replacement.replace inherited)) = entryIds entries := by
  rw [entryIds, List.map_map]
  exact map_congr_left fun entry _ => replacement.replace_id inherited entry

theorem insertEntries (stored entries : List TranscriptStorageNode) (leafId : Option EntryId)
    (own : ∀ entry ∈ entries, entry.id ∉ inherited) :
    (({ entries := stored.map (replacement.replace inherited), activeLeafId := leafId } :
        Database).insertEntries entries).entries =
      (({ entries := stored, activeLeafId := leafId } : Database).insertEntries entries).entries.map
        (replacement.replace inherited) := by
  induction entries generalizing stored with
  | nil => rfl
  | cons entry _ ih =>
    have restOwn := (forall_mem_cons.mp own).2
    have sameKnown : (stored.map (replacement.replace inherited)).any (·.id == entry.id) =
        stored.any (·.id == entry.id) := by
      rw [List.any_map]
      apply congrArg (stored.any ·)
      funext other
      simp [replacement.replace_id inherited other]
    rw [Database.insertEntries, Database.insertEntries, foldl_cons, foldl_cons,
      Database.insertEntry, Database.insertEntry]
    rw [sameKnown]
    split
    · exact ih stored restOwn
    · have appended : stored.map (replacement.replace inherited) ++ [entry] =
          (stored ++ [entry]).map (replacement.replace inherited) := by
        rw [map_append, map_singleton, replacement.replace_own inherited (own entry (.head _))]
      rw [appended]
      exact ih _ restOwn

theorem install (session : SessionRow) (entries : List TranscriptStorageNode)
    (lastId : Option EntryId) (own : ∀ entry ∈ entries, entry.id ∉ inherited) :
    (replacement.apply inherited session).install entries lastId =
      replacement.apply inherited (session.install entries lastId) := by
  have same := replacement.insertEntries inherited session.entries entries session.activeLeafId own
  exact congrArg (fun stored => { session with entries := stored, activeLeafId := lastId }) same

theorem drawnFor_iff (stored entries : List TranscriptStorageNode) :
    DrawnFor (stored.map (replacement.replace inherited)) entries ↔ DrawnFor stored entries := by
  rw [DrawnFor, DrawnFor]
  simp [replacement.replace_id, replacement.replace_shown]

theorem record {session : SessionRow} (known : inherited ⊆ entryIds session.entries)
    (step : TranscriptStep) :
    (replacement.apply inherited session).record inherited step =
      (session.record inherited step).map (replacement.apply inherited) := by
  have own : ∀ {entries : List TranscriptStorageNode}, DrawnFor session.entries entries →
      ∀ entry ∈ entries, entry.id ∉ inherited := by
    intro entries drawn entry mem isInherited
    obtain ⟨other, isStored, same⟩ := mem_map.mp (known isInherited)
    exact (drawn.2 entry.id (mem_map_of_mem mem) other isStored).1 same
  have sameDrawn := replacement.drawnFor_iff inherited session.entries
  cases step with
  | output entries activeLeafId =>
    have sameExtends : (replacement.apply inherited session).database.extendsActiveLeaf entries =
        session.database.extendsActiveLeaf entries := by
      cases entries with
      | nil => rfl
      | cons =>
        show ((session.entries.map _).isEmpty || _) = (session.entries.isEmpty || _)
        rw [isEmpty_map]
        rfl
    rw [SessionRow.record, SessionRow.record, sameExtends]
    show (if ShownBelow session.activeLeafId entries activeLeafId ∧
        DrawnFor (session.entries.map _) entries ∧ _ then _ else none) = _
    simp only [sameDrawn]
    split
    · rename_i admitted
      rw [replacement.install inherited session entries activeLeafId (own admitted.2.1)]
      rfl
    · rfl
  | compact job =>
    have sameInstall : (replacement.apply inherited session).canInstall inherited job =
        session.canInstall inherited job := by
      rw [SessionRow.canInstall, SessionRow.canInstall]
      rw [apply, replacement.replace_ids]
    rw [SessionRow.record, SessionRow.record, sameInstall]
    show (if _ ∧ DrawnFor (session.entries.map _) _ ∧ _ then _ else none) = _
    simp only [sameDrawn]
    split
    · rename_i admitted
      rw [replacement.install inherited session _ _ (own admitted.2.1)]
      rfl
    · rfl
  | work => rfl

theorem run {first session : SessionRow} {branch : List TranscriptStorageNode}
    (begins : Inherited first branch) (grown : Grown first session branch)
    (steps : List TranscriptStep) :
    (replacement.apply (entryIds first.entries) session).run (entryIds first.entries) steps =
      (session.run (entryIds first.entries) steps).map
        (replacement.apply (entryIds first.entries)) := by
  induction steps generalizing session with
  | nil => rfl
  | cons step _ ih =>
    have known : entryIds first.entries ⊆ entryIds session.entries :=
      map_subset _ fun entry mem => grown.inherited entry mem
    rw [SessionRow.run, SessionRow.run, foldlM_cons, foldlM_cons,
      replacement.record (entryIds first.entries) known]
    cases recorded : session.record (entryIds first.entries) step with
    | none => rfl
    | some => exact ih (grown.record begins recorded)

theorem activeBranch (session : SessionRow) :
    (replacement.apply inherited session).activeBranch = session.activeBranch.map fun history =>
      { history with entries := history.entries.map (replacement.replace inherited) } := by
  have walks : ∀ fuel leafId,
      (displayTree (session.entries.map (replacement.replace inherited))).walk fuel leafId =
        ((displayTree session.entries).walk fuel leafId).map (replacement.replace inherited) := by
    apply ParentMap.walk_map
    · intro id
      show findEntry _ id = (findEntry _ id).map _
      rw [findEntry, findEntry, find?_map]
      apply congrArg (fun found => Option.map _ (session.entries.find? found))
      funext entry
      simp [replacement.replace_id inherited entry]
    · intro id entry _
      exact replacement.replace_shown inherited entry
  rw [SessionRow.activeBranch, SessionRow.activeBranch, apply]
  rw [branchToRoot, branchToRoot, walks]
  simp only [length_map]
  split
  · rfl
  · simp only [Except.map, map_reverse]

end Replacement

theorem SameKind.reply_eq_none {item other : TranscriptItem} (same : SameKind item other)
    (noMessage : isAssistantMessage item = false) : assistantReply other = none := by
  cases same with
  | assistantMessage => cases noMessage
  | _ => rfl

theorem SameKind.summary {item other : TranscriptItem} (same : SameKind item other)
    (isSummary : isCompactionSummary item) : leafStatus other = some "done" := by
  cases same with
  | compactionSummary => rfl
  | _ => cases isSummary

/-- The branch of a subagent in both runs, from its leaf: its own entries, then what it
has inherited. -/
structure BranchRead (first : SessionRow) (steps : List TranscriptStep) (child : SessionRow)
    (own branch : List TranscriptStorageNode) : Prop where
  begins : Inherited first branch
  apart : ∀ entry ∈ own, entry ∈ child.entries ∧ entry.id ∉ entryIds first.entries
  climbs : (displayTree child.entries).Climbs child.activeLeafId (own ++ branch)
  grown : Grown first child branch
  here : child.activeBranch = .ok
    { sessionId := child.id
      activeLeafId := child.activeLeafId
      entries := (own ++ branch).reverse }
  there : ∀ replacement : Replacement, ∃ other,
    (replacement.apply (entryIds first.entries) first).run (entryIds first.entries) steps =
        some other ∧
      other.activeBranch = .ok
        { sessionId := child.id
          activeLeafId := child.activeLeafId
          entries := (own ++ branch.map replacement.change).reverse }

theorem exists_branchRead {first child : SessionRow} {steps : List TranscriptStep}
    (created : CreatedSubagent first)
    (ran : first.run (entryIds first.entries) steps = some child) :
    ∃ own branch, BranchRead first steps child own branch := by
  obtain ⟨branch, begins⟩ := created.inherited
  have grown := begins.grown.run begins ran
  obtain ⟨own, isOwn, climbs, here⟩ := grown.activeBranch
  refine ⟨own, branch, ?_⟩
  refine { begins, apart := isOwn, climbs, grown, here, there := ?_ }
  intro replacement
  refine ⟨replacement.apply (entryIds first.entries) child, ?_, ?_⟩
  · rw [replacement.run begins begins.grown, ran]
    rfl
  · have ownStays : own.map (replacement.replace (entryIds first.entries)) = own := by
      conv_rhs => rw [← List.map_id own]
      exact map_congr_left fun entry mem => replacement.replace_own _ (isOwn entry mem).2
    have restChanges : branch.map (replacement.replace (entryIds first.entries)) =
        branch.map replacement.change :=
      map_congr_left fun entry mem => replacement.replace_inherited _
        (mem_map_of_mem ((begins.stored entry).mpr mem))
    rw [replacement.activeBranch, here, Except.map, map_reverse, map_append, ownStays, restChanges]

namespace BranchRead

variable {first child : SessionRow} {steps : List TranscriptStep}
  {own branch : List TranscriptStorageNode}

section

variable (read : BranchRead first steps child own branch)
include read

theorem sameStatus (leaf : ∀ entry ∈ first.entries, child.activeLeafId = some entry.id →
      isCompactionSummary entry.item) (replacement : Replacement) :
    terminalSubagentStatus
        { sessionId := child.id
          activeLeafId := child.activeLeafId
          entries := (own ++ branch.map replacement.change).reverse } =
      terminalSubagentStatus
        { sessionId := child.id
          activeLeafId := child.activeLeafId
          entries := (own ++ branch).reverse } := by
  have climbs := read.climbs
  cases hLeaf : child.activeLeafId with
  | none => rfl
  | some =>
    rw [hLeaf] at climbs
    cases hOwn : own with
    | cons =>
      rw [hOwn] at climbs
      cases climbs with
      | node found =>
        obtain rfl := findEntry_id found
        rw [cons_append, cons_append, terminalSubagentStatus_leaf, terminalSubagentStatus_leaf]
    | nil =>
      rw [hOwn] at climbs
      cases hBranch : branch with
      | nil => rfl
      | cons top =>
        rw [hBranch] at climbs
        cases climbs with
        | node found =>
          obtain rfl := findEntry_id found
          have stored : top ∈ first.entries :=
            (read.begins.stored top).mpr (hBranch ▸ mem_cons_self)
          have isSummary := leaf top stored hLeaf
          rw [nil_append, nil_append, map_cons, ← replacement.id top,
            terminalSubagentStatus_leaf, replacement.id top, terminalSubagentStatus_leaf,
            (replacement.kind top).summary isSummary, (SameKind.refl _).summary isSummary]

theorem sameReply (speaks : SpeaksForItself first child) (replacement : Replacement) :
    (own ++ branch.map replacement.change).findSome? (assistantReply ·.item) =
      (own ++ branch).findSome? (assistantReply ·.item) := by
  rw [findSome?_append, findSome?_append]
  rcases speaks.reply with ⟨history, isBranch, entry, mem, isOwn, replies⟩ | silent
  · rw [read.here] at isBranch
    cases isBranch
    have ownEntry : entry ∈ own := by
      rcases mem_append.mp (mem_reverse.mp mem) with isOwnEntry | onBranch
      · exact isOwnEntry
      · exact absurd (mem_map_of_mem ((read.begins.stored entry).mpr onBranch)) isOwn
    have found : (own.findSome? (assistantReply ·.item)).isSome :=
      findSome?_isSome_iff.mpr ⟨entry, ownEntry, replies⟩
    rw [or_of_isSome found, or_of_isSome found]
  · have noneHere : branch.findSome? (assistantReply ·.item) = none := by
      rw [findSome?_eq_none_iff]
      intro entry mem
      exact (SameKind.refl _).reply_eq_none (silent entry ((read.begins.stored entry).mpr mem))
    have noneThere : (branch.map replacement.change).findSome? (assistantReply ·.item) = none := by
      rw [findSome?_eq_none_iff]
      intro other mem
      obtain ⟨entry, onBranch, rfl⟩ := mem_map.mp mem
      exact (replacement.kind entry).reply_eq_none
        (silent entry ((read.begins.stored entry).mpr onBranch))
    rw [noneHere, noneThere]

theorem isOwn (speaks : SpeaksForItself first child) : ResultIsOwn first steps child where
  independent := by
    intro replacement
    obtain ⟨other, ran, there⟩ := read.there replacement
    refine ⟨other, _, _, ran, read.here, there, ?_⟩
    rw [reportedResult, reportedResult, read.sameStatus speaks.leaf,
      extractFinalMessage_reverse, extractFinalMessage_reverse, read.sameReply speaks]
  silent := by
    intro ownSilent history isBranch
    have isHistory := isBranch
    rw [read.here] at isBranch
    cases isBranch
    have noReply : (own ++ branch).findSome? (assistantReply ·.item) = none := by
      rw [findSome?_eq_none_iff]
      intro entry mem
      rcases mem_append.mp mem with isOwnEntry | onBranch
      · exact ownSilent entry (read.apart entry isOwnEntry).1 (read.apart entry isOwnEntry).2
      · rcases speaks.reply with ⟨other, isOther, reply, isReply, isOwn, replies⟩ | silent
        · rw [isHistory] at isOther
          cases isOther
          have listed := climbs_listed read.climbs reply (mem_reverse.mp isReply)
          rw [ownSilent reply listed isOwn] at replies
          cases replies
        · exact (SameKind.refl _).reply_eq_none
            (silent entry ((read.begins.stored entry).mpr onBranch))
    have noMessage : extractFinalMessage
        { sessionId := child.id
          activeLeafId := child.activeLeafId
          entries := (own ++ branch).reverse } = "" := by
      rw [extractFinalMessage_reverse, noReply]
      rfl
    refine ⟨noMessage, ?_⟩
    rw [reportedResult, noMessage]
    show extractOutcome "" = none
    decide +kernel

end

end BranchRead

/-- Change what the entries hold, but not what a compaction has compacted. -/
def Replacement.ofItem (change : TranscriptItem → TranscriptItem)
    (kind : ∀ item, SameKind item (change item))
    (source : ∀ summary, change (.compactionSummary summary) = .compactionSummary summary) :
    Replacement where
  change entry := { entry with item := change entry.item }
  id _ := rfl
  parentId _ := rfl
  kind entry := kind entry.item
  shown := by
    intro entry
    have same := kind entry.item
    rw [displayParentId, displayParentId]
    cases hItem : entry.item
    case compactionSummary summary => simp only [source]
    all_goals
      rw [hItem] at same
      generalize change _ = item at same
      cases same
      rfl

def speaking (text : String) : TranscriptItem → TranscriptItem
  | .assistantMessage _ => .assistantMessage { items := [.text text] }
  | item => item

def ending (outcome : TurnOutcome) : TranscriptItem → TranscriptItem
  | .turnFinished turnId _ => .turnFinished turnId outcome
  | item => item

theorem speaking_kind (text : String) (item : TranscriptItem) :
    SameKind item (speaking text item) := by
  cases item <;> constructor

theorem ending_kind (outcome : TurnOutcome) (item : TranscriptItem) :
    SameKind item (ending outcome item) := by
  cases item <;> constructor

def speakingEntries (text : String) : Replacement :=
  .ofItem (speaking text) (speaking_kind text) fun _ => rfl

def endingEntries (outcome : TurnOutcome) : Replacement :=
  .ofItem (ending outcome) (ending_kind outcome) fun _ => rfl

theorem speaking_reply {entries : List TranscriptStorageNode} {text : String}
    (replies : nonEmptyText { items := [.text text] } = some text)
    {entry : TranscriptStorageNode} (mem : entry ∈ entries)
    (isMessage : isAssistantMessage entry.item) :
    (entries.map (speakingEntries text).change).findSome? (assistantReply ·.item) = some text := by
  have same : ∀ item reply, assistantReply (speaking text item) = some reply → reply = text := by
    intro item reply isReply
    cases item with
    | assistantMessage => exact (Option.some.inj (replies.symm.trans isReply)).symm
    | _ => cases isReply
  have entryReplies : assistantReply (speaking text entry.item) = some text := by
    cases hItem : entry.item <;> rw [hItem] at isMessage <;> cases isMessage
    exact replies
  have found : ((entries.map (speakingEntries text).change).findSome?
      (assistantReply ·.item)).isSome := by
    rw [findSome?_isSome_iff]
    exact ⟨_, mem_map_of_mem mem, isSome_of_eq_some entryReplies⟩
  obtain ⟨reply, hReply⟩ := isSome_iff_exists.mp found
  obtain ⟨_, isOther, isReply⟩ := exists_of_findSome?_eq_some hReply
  obtain ⟨_, _, rfl⟩ := mem_map.mp isOther
  rw [hReply, same _ _ isReply]

namespace BranchRead

variable {first child : SessionRow} {steps : List TranscriptStep}
  {own branch : List TranscriptStorageNode}

theorem agree (read : BranchRead first steps child own branch)
    (isOwn : ResultIsOwn first steps child) (one another : Replacement) :
    reportedResult
        { sessionId := child.id
          activeLeafId := child.activeLeafId
          entries := (own ++ branch.map one.change).reverse } =
      reportedResult
        { sessionId := child.id
          activeLeafId := child.activeLeafId
          entries := (own ++ branch.map another.change).reverse } := by
  have agrees : ∀ replacement : Replacement, ∀ history, child.activeBranch = .ok history →
      reportedResult
        { sessionId := child.id
          activeLeafId := child.activeLeafId
          entries := (own ++ branch.map replacement.change).reverse } = reportedResult history := by
    intro replacement history isHistory
    obtain ⟨_, _, _, ran, isHere, isThere, same⟩ := isOwn.independent replacement
    obtain ⟨_, ranKnown, isKnown⟩ := read.there replacement
    cases ran.symm.trans ranKnown
    obtain rfl := Except.ok.inj (isHere.symm.trans isHistory)
    obtain rfl := Except.ok.inj (isThere.symm.trans isKnown)
    exact same
  rw [agrees one _ read.here, agrees another _ read.here]

theorem speaks (read : BranchRead first steps child own branch)
    (isOwn : ResultIsOwn first steps child) : SpeaksForItself first child where
  reply := by
    -- Without a reply of its own, a subagent repeats what it has inherited.
    by_contra notSpeaks
    rw [not_or] at notSpeaks
    obtain ⟨noReply, hasMessage⟩ := notSpeaks
    obtain ⟨entry, mem, isMessage⟩ : ∃ entry ∈ first.entries,
        isAssistantMessage entry.item := by simpa using hasMessage
    have ownSilent : own.findSome? (assistantReply ·.item) = none := by
      rw [findSome?_eq_none_iff]
      intro ownEntry isOwnEntry
      rw [← not_isSome_iff_eq_none]
      intro replies
      exact noReply ⟨_, read.here, ownEntry, by simp [isOwnEntry],
        (read.apart ownEntry isOwnEntry).2, replies⟩
    have onBranch := (read.begins.stored entry).mp mem
    have final : ∀ text, nonEmptyText { items := [.text text] } = some text → extractFinalMessage
          { sessionId := child.id
            activeLeafId := child.activeLeafId
            entries := (own ++ branch.map (speakingEntries text).change).reverse } = text := by
      intro text replies
      rw [extractFinalMessage_reverse, findSome?_append, ownSilent, none_or,
        speaking_reply replies onBranch isMessage]
      rfl
    have same : "yes" = "no" :=
      calc "yes" = _ := (final "yes" (by decide +kernel)).symm
        _ = _ := congrArg ReportedResult.finalMessage
          (read.agree isOwn (speakingEntries "yes") (speakingEntries "no"))
        _ = "no" := final "no" (by decide +kernel)
    exact absurd same (by decide)
  leaf := by
    -- An inherited end of a turn is reported as it stands.
    intro entry mem isLeaf
    by_contra notSummary
    have known : entry.id ∈ entryIds first.entries := mem_map_of_mem mem
    have climbs := read.climbs
    rw [isLeaf] at climbs
    obtain ⟨top, rest, hPath, found⟩ : ∃ top rest, own ++ branch = top :: rest ∧
        findEntry child.entries entry.id = some top := by
      have stored : findEntry child.entries entry.id = some entry :=
        findEntry_of_mem read.grown.distinct (read.grown.inherited entry mem)
      cases hPath : own ++ branch with
      | nil =>
        rw [hPath] at climbs
        cases climbs with
        | missing lost => exact absurd (lost.symm.trans stored) nofun
      | cons top rest =>
        rw [hPath] at climbs
        cases climbs with
        | node found => exact ⟨top, rest, rfl, found⟩
    have sameId : top.id = entry.id := findEntry_id found
    cases hOwn : own with
    | cons ownTop =>
      rw [hOwn, cons_append] at hPath
      obtain ⟨rfl, _⟩ := List.cons.inj hPath
      have notKnown := (read.apart ownTop (hOwn ▸ mem_cons_self)).2
      exact notKnown (sameId ▸ known)
    | nil =>
      rw [hOwn, nil_append] at hPath
      have complete : completesContext top.item := by
        rcases read.grown.leaf with isFirst | ⟨other, _, notKnown, isOther⟩
        · rw [isLeaf] at isFirst
          obtain ⟨leaf, _, hBranch, _, complete⟩ := read.begins.complete entry.id isFirst.symm
          obtain ⟨rfl, _⟩ := List.cons.inj (hPath.symm.trans hBranch)
          exact complete
        · rw [isLeaf] at isOther
          exact absurd (Option.some.inj isOther ▸ known) notKnown
      have topStored := (read.begins.stored top).mpr (hPath ▸ mem_cons_self)
      obtain rfl := entry_unique read.begins.distinct topStored mem sameId
      have status : ∀ outcome, terminalSubagentStatus
          { sessionId := child.id
            activeLeafId := child.activeLeafId
            entries := (own ++ branch.map (endingEntries outcome).change).reverse } =
          some (subagentStatus outcome) := by
        intro outcome
        rw [hOwn, hPath, nil_append, map_cons, isLeaf, ← (endingEntries outcome).id top,
          terminalSubagentStatus_leaf]
        show leafStatus (ending outcome top.item) = _
        cases hItem : top.item <;> rw [hItem] at complete notSummary
        case turnFinished => rfl
        case compactionSummary => exact absurd rfl notSummary
        all_goals cases complete
      have same : some (subagentStatus .graceful) = some (subagentStatus .crashed) :=
        calc some (subagentStatus .graceful) = _ := (status .graceful).symm
          _ = _ := congrArg ReportedResult.terminalStatus
            (read.agree isOwn (endingEntries .graceful) (endingEntries .crashed))
          _ = some (subagentStatus .crashed) := status .crashed
      exact absurd same (by decide)

end BranchRead

/-- The result of a subagent is its own exactly if the subagent speaks for itself. -/
theorem result_is_own_iff {first child : SessionRow} {steps : List TranscriptStep}
    (created : CreatedSubagent first)
    (ran : first.run (entryIds first.entries) steps = some child) :
    ResultIsOwn first steps child ↔ SpeaksForItself first child := by
  obtain ⟨_, _, read⟩ := exists_branchRead created ran
  exact ⟨read.speaks, read.isOwn⟩

/-- A session with nothing in its queue. -/
def quietSession (id : String) (entries : List TranscriptStorageNode)
    (activeLeafId : Option EntryId) : SessionRow where
  id := id
  parentSessionId := none
  delegationId := none
  delegationSpawnIndex := none
  subagentType := none
  entries := entries
  activeLeafId := activeLeafId
  actions := []
  mailbox := []

def plainEntry (id : EntryId) (parentId : Option EntryId) (item : TranscriptItem) :
    TranscriptStorageNode where
  id := id
  parentId := parentId
  timestampMs := 0
  item := item
  providerReplay := []

def answeredParent : SessionRow :=
  quietSession "parent"
    [plainEntry "started" none (.turnStarted 1),
      plainEntry "asked" (some "started") (.userMessage (.text "Is it ready?")),
      plainEntry "answered" (some "asked")
        (.assistantMessage { items := [.text "It is.\noutcome: ship"] }),
      plainEntry "finished" (some "answered") (.turnFinished 1 .graceful)]
    (some "finished")

def answeredChild : SessionRow := { answeredParent with id := "child" }

/-- The turn of the child crashes before the assistant says anything. -/
def crashedTurn : List TranscriptStep :=
  [.output
      [plainEntry "began" (some "finished") (.turnStarted 2),
        plainEntry "task" (some "began") (.userMessage (.text "Review it."))] (some "task"),
    .output [plainEntry "crashed" (some "task") (.turnFinished 2 .crashed)] (some "crashed")]

def crashedChild : SessionRow :=
  { answeredChild with
    entries := answeredChild.entries ++
      [plainEntry "began" (some "finished") (.turnStarted 2),
        plainEntry "task" (some "began") (.userMessage (.text "Review it.")),
        plainEntry "crashed" (some "task") (.turnFinished 2 .crashed)]
    activeLeafId := some "crashed" }

theorem answeredChild_created : CreatedSubagent answeredChild := by
  have forked : answeredParent.contextFork (quietSession "child" [] none) = .ok answeredChild := by
    decide +kernel
  exact .forked (by decide) forked

/-- The answer of the parent is reported as that of the child, with its outcome. -/
theorem crashed_child_repeats_parent :
    CreatedSubagent answeredChild ∧
      answeredChild.run (entryIds answeredChild.entries) crashedTurn = some crashedChild ∧
      crashedChild.activeBranch.map reportedResult = .ok
        { terminalStatus := some "failed"
          finalMessage := "It is.\noutcome: ship"
          outcome := some "ship" } ∧
      ¬ ResultIsOwn answeredChild crashedTurn crashedChild := by
  have reported : crashedChild.activeBranch.map reportedResult = .ok
      { terminalStatus := some "failed"
        finalMessage := "It is.\noutcome: ship"
        outcome := some "ship" } := by decide +kernel
  refine ⟨answeredChild_created, by decide +kernel, reported, ?_⟩
  intro isOwn
  cases hBranch : crashedChild.activeBranch with
  | error => rw [hBranch] at reported; cases reported
  | ok history =>
    rw [hBranch] at reported
    have noOutcome := (isOwn.silent (by decide +kernel) history hBranch).2
    have hResult := Except.ok.inj reported
    rw [hResult] at noOutcome
    cases noOutcome

/-- The child answers for itself. -/
def answeringTurn : List TranscriptStep :=
  [.output
    [plainEntry "began" (some "finished") (.turnStarted 2),
      plainEntry "task" (some "began") (.userMessage (.text "Review it.")),
      plainEntry "reply" (some "task") (.assistantMessage { items := [.text "It is not."] }),
      plainEntry "ended" (some "reply") (.turnFinished 2 .graceful)] (some "ended")]

def answeringChild : SessionRow :=
  { answeredChild with
    entries := answeredChild.entries ++
      [plainEntry "began" (some "finished") (.turnStarted 2),
        plainEntry "task" (some "began") (.userMessage (.text "Review it.")),
        plainEntry "reply" (some "task") (.assistantMessage { items := [.text "It is not."] }),
        plainEntry "ended" (some "reply") (.turnFinished 2 .graceful)]
    activeLeafId := some "ended" }

theorem answeringChild_speaks : SpeaksForItself answeredChild answeringChild where
  reply := by
    left
    exact ⟨{ sessionId := "child", activeLeafId := some "ended", entries := answeringChild.entries },
      by decide +kernel, plainEntry "reply" (some "task")
        (.assistantMessage { items := [.text "It is not."] }), by decide +kernel⟩
  leaf := by decide +kernel

theorem answering_child_result_is_own :
    ResultIsOwn answeredChild answeringTurn answeringChild :=
  (result_is_own_iff answeredChild_created (by decide +kernel)).mpr answeringChild_speaks

end PiRelay.Runtime

import PiRelay.AgentStore.ActiveBranch
import PiRelay.Library.Text

/-! What a daemon reads off the branch of a subagent: whether it has ended, and how,
its final message, and the outcome that the message names. -/
namespace PiRelay.Runtime

open AgentVocab Session Store List
open Library (lines stripPrefix trim)

def assistantText (message : AssistantMessage) : String :=
  String.join (message.items.filterMap fun
    | .text text => some text
    | .toolCall _ => none)

def subagentStatus : TurnOutcome → String
  | .graceful => "done"
  | .interrupted | .crashed => "failed"

/-- A subagent that never began and one whose branch was compacted have ended well. -/
def terminalSubagentStatus (history : HistoryTree) : Option String :=
  match history.activeLeafId with
  | none => some "done"
  | some activeLeafId =>
    match history.entries.reverse.find? (·.id == activeLeafId) with
    | none => none
    | some leaf =>
      match leaf.item with
      | .turnFinished _ outcome => some (subagentStatus outcome)
      | .compactionSummary _ => some "done"
      | _ => none

def nonEmptyText (message : AssistantMessage) : Option String :=
  let text := assistantText message
  if (trim text.toList).isEmpty then none else some text

def extractFinalMessage (history : HistoryTree) : String :=
  (history.entries.reverse.findSome? fun entry =>
    match entry.item with
    | .assistantMessage message => nonEmptyText message
    | _ => none).getD ""

/-- The label on the last line of a message; older messages name it otherwise. -/
def extractOutcome (finalMessage : String) : Option String :=
  match ((lines finalMessage.toList).reverse.map trim).find? (!·.isEmpty) with
  | none => none
  | some lastLine =>
    match (stripPrefix "outcome:".toList lastLine).or
        (stripPrefix "suggested_next:".toList lastLine) with
    | none => none
    | some value =>
      let value := trim value
      if value.isEmpty then none else some (String.ofList value)

example : extractOutcome "It works.\n outcome: ship \r\n\n" = some "ship" := by decide +kernel

theorem terminalSubagentStatus_failed_iff {session : SessionRow} {history : HistoryTree}
    (read : session.activeBranch = .ok history) :
    terminalSubagentStatus history = some "failed" ↔ session.endsFailed := by
  rw [SessionRow.activeBranch, branchToRoot] at read
  split at read
  · cases read
  · cases read
    rw [terminalSubagentStatus, SessionRow.endsFailed]
    simp only [reverse_reverse]
    cases hLeaf : session.activeLeafId with
    | none => simp
    | some leafId =>
      simp only [Option.bind_some]
      cases found : findEntry session.entries leafId with
      | none =>
        rw [walk_of_missing found]
        simp
      | some leaf =>
        rw [walk_of_leaf found, find?_cons_of_pos (by simpa using findEntry_id found)]
        cases hItem : leaf.item with
        | turnFinished _ outcome => cases outcome <;> simp [hItem, subagentStatus]
        | _ => simp [hItem]

end PiRelay.Runtime

import PiRelay.AgentMcpTypes.Snapshot
import PiRelay.Library.Fallible

/-! What a client selects from an inventory, and the check of its shape
(`validate_selection_shape` in `agent-mcp/src/manager.rs`). -/
namespace PiRelay.AgentMcp

open AgentMcpTypes Library

def maxSelectedServers : Nat := 64
def maxRevisionBytes : Nat := 128
def maxServerIdBytes : Nat := 128
def maxRawToolNameBytes : Nat := 256

structure McpServerSelection where
  server : String
  tools : List String

structure McpSessionSelection where
  inventoryRevision : String
  servers : List McpServerSelection

def utf16Units (char : Char) : List Nat :=
  let code := char.toNat
  if code < 0x10000 then [code]
  else [0xD800 + (code - 0x10000) / 0x400, 0xDC00 + (code - 0x10000) % 0x400]

def strictlyUtf16Ordered (left right : String) : Bool :=
  decide (left.toList.flatMap utf16Units < right.toList.flatMap utf16Units)

/-- Some text is not before the next one. -/
def unordered : List String → Bool
  | left :: right :: rest => !strictlyUtf16Ordered left right || unordered (right :: rest)
  | _ => false

def selectServers : List McpServerSelection → SortedMap String (List String) → Nat →
    Except String (SortedMap String (List String))
  | [], selected, toolCount =>
    if maxTools < toolCount then
      .error ("MCP selection has more than " ++ toString maxTools ++ " tools")
    else .ok selected
  | server :: rest, selected, toolCount =>
    if server.server = "" ∨ maxServerIdBytes < server.server.utf8ByteSize
        ∨ server.tools.isEmpty then
      .error "selected servers and tool lists must be nonempty"
    else if unordered server.tools then
      .error ("MCP server " ++ server.server ++ " tool identities must be sorted and unique")
    else
      let tools := SortedMap.collectKeys server.tools
      if tools.any fun tool => tool == "" || maxRawToolNameBytes < tool.utf8ByteSize then
        .error ("MCP server " ++ server.server ++ " has an empty or over-limit tool name")
      else if (selected.get server.server).isSome then
        .error ("duplicate MCP server " ++ server.server)
      else
        selectServers rest (selected.insert server.server tools) (toolCount + tools.length)

def validateSelectionShape (selection : McpSessionSelection) :
    Except String (SortedMap String (List String)) :=
  if selection.inventoryRevision = "" ∨ maxRevisionBytes < selection.inventoryRevision.utf8ByteSize
      ∨ maxSelectedServers < selection.servers.length then
    .error "invalid inventory revision or too many selected servers"
  else if unordered (selection.servers.map McpServerSelection.server) then
    .error "selected MCP server identities must be sorted and unique"
  else selectServers selection.servers SortedMap.empty 0

/-- Every selected server has a name and selects tools. -/
def Filled (selected : SortedMap String (List String)) : Prop :=
  ∀ entry ∈ selected.entries, entry.1 ≠ "" ∧ entry.2 ≠ []

theorem selectServers_filled {servers : List McpServerSelection}
    {selected result : SortedMap String (List String)} {toolCount : Nat} (filled : Filled selected)
    (isOk : selectServers servers selected toolCount = .ok result) : Filled result := by
  induction servers generalizing selected toolCount with
  | nil =>
    rw [selectServers] at isOk
    split at isOk
    · cases isOk
    · exact Except.ok.inj isOk ▸ filled
  | cons server _ ih =>
    rw [selectServers] at isOk
    split at isOk
    · cases isOk
    rename_i named
    split at isOk
    · cases isOk
    dsimp only at isOk
    split at isOk
    · cases isOk
    split at isOk
    · cases isOk
    apply ih _ isOk
    intro entry mem
    rcases mem_insertEntry mem with rfl | old
    · rw [not_or, not_or] at named
      have listed : server.tools ≠ [] := by simpa using named.2.2
      exact ⟨named.1, SortedMap.collectKeys_ne_nil listed⟩
    · exact filled entry old

theorem validateSelectionShape_filled {selection : McpSessionSelection}
    {selected : SortedMap String (List String)}
    (isOk : validateSelectionShape selection = .ok selected) : Filled selected := by
  rw [validateSelectionShape] at isOk
  split at isOk
  · cases isOk
  · split at isOk
    · cases isOk
    · apply selectServers_filled _ isOk
      intro entry mem
      cases mem

end PiRelay.AgentMcp

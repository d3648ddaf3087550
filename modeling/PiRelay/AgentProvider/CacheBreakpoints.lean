import PiRelay.AgentProvider.AnthropicReplay
import PiRelay.Library.JsonErasure

/-! Where the messages of an Anthropic request are marked for its cache: the last block that can
carry a marker, and in a long transcript one more. -/
namespace PiRelay.AgentProvider

open Library (Json)
open Library.Json (withoutItems)

def transcriptLookbackBlocks : Nat := 18

def cacheControl5m : Json := .object [("type", .string "ephemeral")]

def isCacheableTranscriptBlock (block : Json) : Bool :=
  (block.get "cache_control").isNone &&
    match block.getStr "type" with
    | some "text" | some "tool_use" | some "tool_result" => true
    | _ => false

def markBlock (block : Json) : Json := block.set "cache_control" cacheControl5m

/-- The last block that can carry a marker gets one: a later block is found first. -/
def latestCacheableContentBlock : List Json → Option (List Json)
  | [] => none
  | block :: later =>
    match latestCacheableContentBlock later with
    | some marked => some (block :: marked)
    | none => if isCacheableTranscriptBlock block then some (markBlock block :: later) else none

def markLatestMessage : List Json → Option (List Json)
  | [] => none
  | message :: later =>
    match markLatestMessage later with
    | some marked => some (message :: marked)
    | none =>
      match (message.getArray "content").bind latestCacheableContentBlock with
      | some content => some (message.set "content" (.array content) :: later)
      | none => none

def messageBlocks (message : Json) : List Json := (message.getArray "content").getD []

/-- The number of blocks that can carry a marker. -/
def totalCacheable : List Json → Nat
  | [] => 0
  | message :: later =>
    (messageBlocks message).countP isCacheableTranscriptBlock + totalCacheable later

def markLatestCacheableBlock (messages : List Json) : List Json × Option Nat :=
  let total := totalCacheable messages
  if total = 0 then (messages, none)
  else
    match markLatestMessage messages with
    | some marked => (marked, some total)
    | none => (messages, none)

/-- The blocks with the `target`-th one marked, and how many were seen. -/
def markContentAtIndex (target : Nat) : Nat → List Json → List Json × Nat
  | seen, [] => ([], seen)
  | seen, block :: rest =>
    if isCacheableTranscriptBlock block = false then
      let (marked, total) := markContentAtIndex target seen rest
      (block :: marked, total)
    else if seen + 1 = target then (markBlock block :: rest, seen + 1)
    else
      let (marked, total) := markContentAtIndex target (seen + 1) rest
      (block :: marked, total)

/-- The search ends at the message that holds the block. -/
def markMessagesAtIndex (target : Nat) : Nat → List Json → List Json
  | _, [] => []
  | seen, message :: rest =>
    match message.getArray "content" with
    | none => message :: markMessagesAtIndex target seen rest
    | some content =>
      let (marked, total) := markContentAtIndex target seen content
      message.set "content" (.array marked) ::
        if total = target then rest else markMessagesAtIndex target total rest

def markCacheableBlockAtIndex (messages : List Json) (target : Nat) : List Json :=
  if target = 0 then messages else markMessagesAtIndex target 0 messages

def addTranscriptCacheBreakpoints (messages : List Json) : List Json :=
  match markLatestCacheableBlock messages with
  | (messages, none) => messages
  | (messages, some total) =>
    if total ≤ transcriptLookbackBlocks then messages
    else markCacheableBlockAtIndex messages (total - transcriptLookbackBlocks)

variable {blocks messages marked content : List Json} {message : Json}

theorem withoutItems_markBlock (block : Json) (rest : List Json) :
    withoutItems "cache_control" (markBlock block :: rest) =
      withoutItems "cache_control" (block :: rest) := by
  rw [withoutItems, withoutItems, markBlock, Json.without_set_self]

theorem withoutItems_latestCacheableContentBlock
    (found : latestCacheableContentBlock blocks = some marked) :
    withoutItems "cache_control" marked = withoutItems "cache_control" blocks := by
  induction blocks generalizing marked with
  | nil => cases found
  | cons block later ih =>
    rw [latestCacheableContentBlock] at found
    split at found
    · rename_i same
      cases found
      rw [withoutItems, withoutItems, ih same]
    · split at found
      · cases found
        exact withoutItems_markBlock block later
      · cases found

/-- A message whose blocks are the same but for markers is the same but for markers. -/
theorem without_set_content (holds : message.getArray "content" = some content)
    (same : withoutItems "cache_control" marked = withoutItems "cache_control" content) :
    (message.set "content" (.array marked)).without "cache_control" =
      message.without "cache_control" := by
  have apart : "content" ≠ "cache_control" := by decide
  have own : message.set "content" (.array content) = message := by
    obtain ⟨field, isField, isArray⟩ := Option.bind_eq_some_iff.mp holds
    cases field with
    | array =>
      cases isArray
      exact Json.set_get_self isField
    | _ => cases isArray
  rw [Json.without_set_of_ne apart, Json.without, same]
  rw [← Json.without, ← Json.without_set_of_ne apart, own]

theorem withoutItems_markLatestMessage (found : markLatestMessage messages = some marked) :
    withoutItems "cache_control" marked = withoutItems "cache_control" messages := by
  induction messages generalizing marked with
  | nil => cases found
  | cons _ _ ih =>
    rw [markLatestMessage] at found
    split at found
    · rename_i same
      cases found
      rw [withoutItems, withoutItems, ih same]
    · split at found
      · rename_i isMarked
        obtain ⟨_, holds, same⟩ := Option.bind_eq_some_iff.mp isMarked
        cases found
        rw [withoutItems, withoutItems,
          without_set_content holds (withoutItems_latestCacheableContentBlock same)]
      · cases found

theorem withoutItems_markContentAtIndex (target seen : Nat) (blocks : List Json) :
    withoutItems "cache_control" (markContentAtIndex target seen blocks).1 =
      withoutItems "cache_control" blocks := by
  induction blocks generalizing seen with
  | nil => rfl
  | cons block rest ih =>
    rw [markContentAtIndex]
    split
    · rw [withoutItems, withoutItems, ih]
    · split
      · exact withoutItems_markBlock block rest
      · rw [withoutItems, withoutItems, ih]

theorem withoutItems_markMessagesAtIndex (target seen : Nat) (messages : List Json) :
    withoutItems "cache_control" (markMessagesAtIndex target seen messages) =
      withoutItems "cache_control" messages := by
  induction messages generalizing seen with
  | nil => rfl
  | cons _ _ ih =>
    rw [markMessagesAtIndex]
    split
    · rw [withoutItems, withoutItems, ih]
    · rename_i content holds
      have same := without_set_content holds (withoutItems_markContentAtIndex target seen content)
      simp only [withoutItems, same]
      split
      · rfl
      · rw [ih]

/-- Only markers are added. -/
theorem withoutItems_addBreakpoints (messages : List Json) :
    withoutItems "cache_control" (addTranscriptCacheBreakpoints messages) =
      withoutItems "cache_control" messages := by
  rw [addTranscriptCacheBreakpoints, markLatestCacheableBlock]
  by_cases none : totalCacheable messages = 0
  · simp only [none, if_true]
  · cases isMarked : markLatestMessage messages with
    | none => simp only [none, if_false]
    | some =>
      have same := withoutItems_markLatestMessage isMarked
      simp only [none, if_false]
      split
      · exact same
      · rw [markCacheableBlockAtIndex]
        split
        · exact same
        · rw [withoutItems_markMessagesAtIndex, same]

end PiRelay.AgentProvider

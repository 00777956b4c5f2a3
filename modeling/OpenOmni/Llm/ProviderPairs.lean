import Mathlib
import OpenOmni.Fold.Message
import OpenOmni.Lib.Utf16

/-! The messages of a context as a provider gets them: tool calls split from their results, and the
normalisation for Anthropic. -/
namespace OpenOmni
namespace Provider
open Message List

/-- `Provider.Model`, as far as the conversion reads it. -/
structure Model where
  providerID : String
  id : String
  npm : Option String

inductive ContentPart where
  | text (text : String)
  | reasoning (text : String) (signature : Option String)
  | toolCall (toolCallId toolName : String) (input : PlainObject)

/-- `SDKMessage`; the content of an assistant message is a text or a list of parts. -/
inductive SDKMessage where
  | user (content : String) (cacheControl : Bool)
  | assistantText (content : String)
  | assistant (content : List ContentPart)
  | tool (toolCallId toolName output : String)

/-- What `/[^a-zA-Z0-9_-]/` does not match. -/
def wireSafe (c : Char) : Bool := c.isAlphanum || c = '_' || c = '-'

def wireText (text : String) : List Char :=
  text.toList.flatMap fun c => if wireSafe c then [c] else List.replicate (Utf16.units c) '_'

def sanitizeToolCallID (toolCallID : String) : String := .ofList (wireText toolCallID)

/-- `toolWireName`. -/
def sanitizeToolName (name : String) : String := .ofList ((wireText name).take 128)

def buildAssistantReasoningBlock (text : String) (signature : Option String) (resendSignature : Bool) : ContentPart :=
  .reasoning text (if resendSignature then signature else none)

def stateInput : Tool.State → PlainObject
  | .pending input | .running input _ | .completed input _ _ _ _ _ | .error input _ _ _ => input

def buildToolCallBlock (id tool : String) (input : PlainObject) : ContentPart := .toolCall id (sanitizeToolName tool) input

def resultOutput : Tool.State → String
  | .completed _ output _ _ _ _ => output
  | .error _ message _ _ => "Error: " ++ message
  | .pending _ | .running _ _ => "[Tool execution was interrupted]"

def buildToolResult (callID tool : String) (state : Tool.State) : SDKMessage :=
  .tool callID (sanitizeToolName tool) (resultOutput state)

def textContent (parts : List Part) : List String := parts.filterMap fun
  | .text _ text _ _ => some text
  | _ => none

def reasoningBlocks (resendSignature : Bool) (parts : List Part) : List ContentPart := parts.filterMap fun
  | .reasoning _ text signature _ _ => some (buildAssistantReasoningBlock text signature resendSignature)
  | _ => none

def toolCalls (parts : List Part) : List ContentPart := parts.filterMap fun
  | .tool _ callID tool state => some (buildToolCallBlock callID tool (stateInput state))
  | _ => none

def toolResults (parts : List Part) : List SDKMessage := parts.filterMap fun
  | .tool _ callID tool state => some (buildToolResult callID tool state)
  | _ => none

def joinLines (texts : List String) : String := "\n".intercalate texts

def textPart (textContent : List String) : List ContentPart := if textContent = [] then [] else [.text (joinLines textContent)]

def assembleAssistantMessages (textContent : List String) (reasoningBlocks toolCalls : List ContentPart)
    (toolResults : List SDKMessage) : List SDKMessage :=
  if toolCalls ≠ [] then .assistant (reasoningBlocks ++ textPart textContent ++ toolCalls) :: toolResults
  else if reasoningBlocks ≠ [] then [.assistant (reasoningBlocks ++ textPart textContent)]
  else if textContent ≠ [] then [.assistantText (joinLines textContent)]
  else []

def buildAssistantMessage (info : AssistantMessage) (parts : List Part) (model : Model) : List SDKMessage :=
  if info.finish = some "error" then []
  else
    let resendSignature := info.providerID = model.providerID ∧ info.modelID = model.id
    assembleAssistantMessages (textContent parts) (reasoningBlocks (decide resendSignature) parts) (toolCalls parts)
      (toolResults parts)

def messageToSDK (message : WithParts) (model : Model) : List SDKMessage :=
  if message.parts = [] then []
  else match message.info with
    | .assistant info => buildAssistantMessage info message.parts model
    | .user _ =>
      let content := joinLines (textContent message.parts)
      if content = "" then [] else [.user content false]

/-- The messages before `normalizeMessages`. -/
def coreMessages (messages : List WithParts) (model : Model) : List SDKMessage := messages.flatMap (messageToSDK · model)

def isAnthropicPackage (npm : Option String) : Bool := npm = some "@ai-sdk/anthropic"

/-- `includes` of a text. -/
def includes (text part : String) : Bool := decide (part.toList <:+: text.toList)

/-- What of the content of a message is not empty; nothing where all of it is. -/
def dropEmpty : SDKMessage → Option SDKMessage
  | .user content cacheControl => if content = "" then none else some (.user content cacheControl)
  | .assistantText content => if content = "" then none else some (.assistantText content)
  | .assistant content =>
    let filtered := content.filter fun
      | .text text | .reasoning text _ => text ≠ ""
      | .toolCall _ _ _ => true
    if filtered = [] then none else some (.assistant filtered)
  | .tool toolCallId toolName output => some (.tool toolCallId toolName output)

def sanitizeAssistantContentPart : ContentPart → ContentPart
  | .toolCall toolCallId toolName input => .toolCall (sanitizeToolCallID toolCallId) toolName input
  | part => part

def sanitizeMessage : SDKMessage → SDKMessage
  | .assistant content => .assistant (content.map sanitizeAssistantContentPart)
  | .tool toolCallId toolName output => .tool (sanitizeToolCallID toolCallId) toolName output
  | message => message

def markFirst : List SDKMessage → List SDKMessage
  | [] => []
  | .user content _ :: rest => .user content true :: rest
  | message :: rest => message :: markFirst rest

def applyAnthropicCaching (messages : List SDKMessage) : List SDKMessage := (markFirst messages.reverse).reverse

def normalizeAnthropic (messages : List SDKMessage) (modelId : String) : List SDKMessage :=
  let result := messages.filterMap dropEmpty
  applyAnthropicCaching (if includes modelId "claude" then result.map sanitizeMessage else result)

def normalizeMessages (messages : List SDKMessage) (model : Model) : List SDKMessage :=
  if isAnthropicPackage model.npm then normalizeAnthropic messages model.id else messages

def toModelMessages (messages : List WithParts) (model : Model) : List SDKMessage :=
  normalizeMessages (coreMessages messages model) model

def ContentPart.call : ContentPart → Option String
  | .toolCall toolCallId _ _ => some toolCallId
  | _ => none

def calls : SDKMessage → List String
  | .assistant content => content.filterMap ContentPart.call
  | _ => []

def answers : SDKMessage → Option String
  | .tool toolCallId _ _ => some toolCallId
  | _ => none

/-- Each call has one result before the next user or assistant message, and each result stands behind its call. -/
structure Paired (messages : List SDKMessage) : Prop where
  called : ∀ before message after, messages = before ++ message :: after → ∀ id ∈ calls message,
    ((after.takeWhile fun m => (answers m).isSome).filterMap answers).count id = 1
  answered : ∀ before message after id, messages = before ++ message :: after → answers message = some id →
    ∃ front caller results, before = front ++ caller :: results ∧ (∀ m ∈ results, (answers m).isSome = true) ∧ id ∈ calls caller

/-- A list in segments: a speaker, and right behind it the results of its calls in their order. -/
inductive Segmented : List SDKMessage → Prop where
  | nil : Segmented []
  | cons {speaker : SDKMessage} {results rest : List SDKMessage} (hspeaker : answers speaker = none)
      (hresults : results.map answers = (calls speaker).map some) (hnodup : (calls speaker).Nodup) (hrest : Segmented rest) :
      Segmented (speaker :: (results ++ rest))

lemma Segmented.append {l l' : List SDKMessage} (h : Segmented l) (h' : Segmented l') : Segmented (l ++ l') := by
  induction h with
  | nil => exact h'
  | cons hspeaker hresults hnodup _ ih =>
    rw [cons_append, append_assoc]
    exact .cons hspeaker hresults hnodup ih

variable {α : Type*} {message : SDKMessage} {id : String} {messages messages' : List SDKMessage} {model : Model}

lemma Segmented.flatMap {f : α → List SDKMessage} {l : List α} (h : ∀ a ∈ l, Segmented (f a)) :
    Segmented (l.flatMap f) := by
  induction l with
  | nil => exact .nil
  | cons a l ih =>
    rw [flatMap_cons]
    exact (h a mem_cons_self).append (ih fun b hb => h b (mem_cons_of_mem a hb))

lemma segmented_silent (hcalls : calls message = []) (hspeaker : answers message = none) : Segmented [message] := by
  have hresults : ([] : List SDKMessage).map answers = (calls message).map some := by
    rw [hcalls]
    rfl
  exact .cons hspeaker hresults (hcalls ▸ nodup_nil) .nil

lemma calls_eq_nil (h : answers message = some id) : calls message = [] := by
  cases message with
  | tool => rfl
  | _ => cases h

section Results
variable {speaker : SDKMessage} {results rest : List SDKMessage}

section
variable (hresults : results.map answers = (calls speaker).map some)
include hresults

lemma answers_of_mem {message : SDKMessage}
    (hmem : message ∈ results) : ∃ id ∈ calls speaker, answers message = some id := by
  have h : answers message ∈ (calls speaker).map some := hresults ▸ mem_map_of_mem hmem
  obtain ⟨id, hid, heq⟩ := mem_map.mp h
  exact ⟨id, hid, heq.symm⟩

lemma filterMap_answers : results.filterMap answers = calls speaker := by
  have h := congrArg (List.filterMap id) hresults
  rwa [filterMap_map, filterMap_map, Function.id_comp, Function.id_comp, filterMap_some] at h

lemma takeWhile_results (hrest : Segmented rest) :
    (results ++ rest).takeWhile (fun m => (answers m).isSome) = results := by
  rw [takeWhile_append_of_pos]
  · cases hrest with
    | nil => simp
    | cons hspeaker =>
      rw [takeWhile_cons_of_neg (by rw [hspeaker]; decide), append_nil]
  · intro message hmem
    obtain ⟨id, -, heq⟩ := answers_of_mem hresults hmem
    rw [heq]
    rfl

end

end Results

lemma append_eq_append_cons {front rest before after : List α} {a : α} (h : front ++ rest = before ++ a :: after) :
    (∃ tail, front = before ++ a :: tail ∧ after = tail ++ rest) ∨ ∃ more, before = front ++ more ∧ rest = more ++ a :: after := by
  rcases append_eq_append_iff.mp h with ⟨more, rfl, hrest⟩ | ⟨more, rfl, hmore⟩
  · exact .inr ⟨more, rfl, hrest⟩
  · cases more with
    | nil => exact .inr ⟨[], by simp, hmore.symm⟩
    | cons b more =>
      cases hmore
      exact .inl ⟨more, rfl, rfl⟩

lemma Segmented.paired (h : Segmented messages) : Paired messages := by
  induction h with
  | nil =>
    constructor
    · intro before message after heq
      simp at heq
    · intro before message after id heq
      simp at heq
  | @cons speaker results rest hspeaker hresults hnodup hrest ih =>
    constructor
    · intro before message after heq id hid
      cases before with
      | nil =>
        cases heq
        rw [takeWhile_results hresults hrest, filterMap_answers hresults]
        exact count_eq_one_of_mem hnodup hid
      | cons first before =>
        rcases append_eq_append_cons (List.cons.inj heq).2 with ⟨tail, rfl, -⟩ | ⟨more, -, hmore⟩
        · obtain ⟨_, -, hanswer⟩ := answers_of_mem hresults (mem_append_right before mem_cons_self)
          rw [calls_eq_nil hanswer] at hid
          cases hid
        · exact ih.called more message after hmore id hid
    · intro before message after id heq hanswer
      cases before with
      | nil =>
        obtain ⟨rfl, -⟩ := List.cons.inj heq
        rw [hspeaker] at hanswer
        cases hanswer
      | cons first before =>
        obtain ⟨rfl, htail⟩ := List.cons.inj heq
        rcases append_eq_append_cons htail with ⟨tail, rfl, -⟩ | ⟨more, rfl, hmore⟩
        · obtain ⟨id', hid, hanswer'⟩ := answers_of_mem hresults (mem_append_right before mem_cons_self)
          obtain rfl := Option.mem_unique hanswer hanswer'
          refine ⟨[], speaker, before, rfl, fun m hm => ?_, hid⟩
          obtain ⟨_, -, heq⟩ := answers_of_mem hresults (mem_append_left _ hm)
          rw [heq]
          rfl
        · obtain ⟨front, caller, tail, rfl, htail, hid⟩ := ih.answered more message after id hmore hanswer
          exact ⟨speaker :: (results ++ front), caller, tail, by simp, htail, hid⟩

def toolId : Part → Option String
  | .tool _ callID _ _ => some callID
  | _ => none

def toolIds (messages : List WithParts) : List String := (messages.flatMap (·.parts)).filterMap toolId

/-- The call ids a message is sent with; one that ended in an error is not sent. -/
def sentIdsOf (message : WithParts) : List String :=
  match message.info with
  | .assistant info => if info.finish = some "error" then [] else message.parts.filterMap toolId
  | .user _ => []

def sentIds (messages : List WithParts) : List String := messages.flatMap sentIdsOf

lemma calls_toolCalls (parts : List Part) : (toolCalls parts).filterMap ContentPart.call = parts.filterMap toolId := by
  unfold toolCalls
  rw [filterMap_filterMap]
  refine filterMap_congr fun part _ => ?_
  cases part with
  | tool => rfl
  | _ => rfl

lemma answers_toolResults (parts : List Part) : (toolResults parts).map answers = (parts.filterMap toolId).map some := by
  unfold toolResults
  rw [map_filterMap, map_filterMap]
  refine filterMap_congr fun part _ => ?_
  cases part with
  | tool => rfl
  | _ => rfl

lemma no_calls_reasoning (resend : Bool) (parts : List Part) :
    (reasoningBlocks resend parts).filterMap ContentPart.call = [] := by
  unfold reasoningBlocks
  rw [filterMap_filterMap, filterMap_eq_nil_iff]
  intro part _
  cases part with
  | reasoning => rfl
  | _ => rfl

lemma no_calls_text (texts : List String) : (textPart texts).filterMap ContentPart.call = [] := by
  unfold textPart
  split_ifs
  · rfl
  · rfl

lemma toolCalls_eq_nil {parts : List Part} (h : toolCalls parts = []) : parts.filterMap toolId = [] := by
  rw [← calls_toolCalls, h]
  rfl

lemma assistant_segment (info : AssistantMessage) (parts : List Part) (model : Model) (hnodup : (parts.filterMap toolId).Nodup) :
    Segmented (buildAssistantMessage info parts model) ∧ (buildAssistantMessage info parts model).flatMap calls =
      if info.finish = some "error" then [] else parts.filterMap toolId := by
  unfold buildAssistantMessage
  split_ifs with herror
  · exact ⟨.nil, rfl⟩
  dsimp only
  generalize decide (info.providerID = model.providerID ∧ info.modelID = model.id) = resend
  have hcalls : calls (.assistant (reasoningBlocks resend parts ++ textPart (textContent parts) ++ toolCalls parts)) =
      parts.filterMap toolId := by
    simp only [calls, filterMap_append, no_calls_reasoning, no_calls_text, calls_toolCalls, nil_append]
  have hquiet : calls (.assistant (reasoningBlocks resend parts ++ textPart (textContent parts))) = [] := by
    simp only [calls, filterMap_append, no_calls_reasoning, no_calls_text, nil_append]
  unfold assembleAssistantMessages
  split_ifs with hno hreasoning htext
  · constructor
    · rw [← append_nil (toolResults parts)]
      exact .cons rfl (by rw [hcalls, answers_toolResults]) (by rwa [hcalls]) .nil
    · have hresults : (toolResults parts).flatMap calls = [] := by
        refine flatMap_eq_nil_iff.mpr fun message hmem => ?_
        have hanswer : answers message ∈ (parts.filterMap toolId).map some := answers_toolResults parts ▸ mem_map_of_mem hmem
        obtain ⟨id, -, heq⟩ := mem_map.mp hanswer
        exact calls_eq_nil heq.symm
      rw [flatMap_cons, hcalls, hresults, append_nil]
  all_goals rw [toolCalls_eq_nil (not_not.mp hno)]
  · exact ⟨segmented_silent hquiet rfl, by rw [flatMap_singleton, hquiet]⟩
  · exact ⟨segmented_silent rfl rfl, rfl⟩
  · exact ⟨.nil, rfl⟩

lemma core_segmented (messages : List WithParts) (model : Model) (hnodup : (toolIds messages).Nodup) :
    Segmented (coreMessages messages model) ∧ (coreMessages messages model).flatMap calls = sentIds messages := by
  have hparts : ∀ message ∈ messages, (message.parts.filterMap toolId).Nodup := by
    intro message hmem
    refine hnodup.sublist ?_
    unfold toolIds
    rw [filterMap_flatMap]
    exact sublist_flatten_of_mem (mem_map_of_mem hmem)
  have hmessage : ∀ message ∈ messages, Segmented (messageToSDK message model) ∧
      (messageToSDK message model).flatMap calls = sentIdsOf message := by
    intro message hmem
    unfold messageToSDK sentIdsOf
    cases hinfo : message.info with
    | user info =>
      split_ifs
      · exact ⟨.nil, rfl⟩
      · dsimp only
        split_ifs
        · exact ⟨.nil, rfl⟩
        · exact ⟨segmented_silent rfl rfl, rfl⟩
    | assistant info =>
      split_ifs with hempty
      · rw [hempty]
        exact ⟨.nil, by simp⟩
      · exact assistant_segment info message.parts model (hparts message hmem)
  refine ⟨Segmented.flatMap fun message hmem => (hmessage message hmem).1, ?_⟩
  unfold coreMessages sentIds
  rw [flatMap_assoc]
  exact flatMap_congr fun message hmem => (hmessage message hmem).2

lemma call_filter (content : List ContentPart) : (content.filter fun
      | .text text | .reasoning text _ => text ≠ ""
      | .toolCall _ _ _ => true).filterMap ContentPart.call = content.filterMap ContentPart.call := by
  rw [filterMap_filter]
  refine filterMap_congr fun part _ => ?_
  cases part with
  | toolCall => rfl
  | text text | reasoning text signature =>
    dsimp only
    split_ifs
    · rfl
    · rfl

lemma dropEmpty_cases (message : SDKMessage) :
    (∃ kept, dropEmpty message = some kept ∧ calls kept = calls message ∧ answers kept = answers message) ∨
      dropEmpty message = none ∧ calls message = [] ∧ answers message = none := by
  cases message with
  | user content cacheControl | assistantText content =>
    by_cases hempty : content = ""
    · exact .inr ⟨if_pos hempty, rfl, rfl⟩
    · exact .inl ⟨_, if_neg hempty, rfl, rfl⟩
  | tool toolCallId toolName output => exact .inl ⟨_, rfl, rfl, rfl⟩
  | assistant content =>
    have hcalls := call_filter content
    by_cases hempty : (content.filter fun
        | .text text | .reasoning text _ => text ≠ ""
        | .toolCall _ _ _ => true) = []
    · refine .inr ⟨if_pos hempty, ?_, rfl⟩
      rw [hempty] at hcalls
      exact hcalls.symm
    · exact .inl ⟨_, if_neg hempty, hcalls, rfl⟩

lemma dropEmpty_answer (h : answers message = some id) : dropEmpty message = some message := by
  cases message with
  | tool => rfl
  | _ => cases h

lemma filterMap_results {speaker : SDKMessage} {results : List SDKMessage}
    (hresults : results.map answers = (calls speaker).map some) : results.filterMap dropEmpty = results := by
  have hkept : results.filterMap dropEmpty = results.filterMap some := by
    refine filterMap_congr fun message hmem => ?_
    obtain ⟨id, -, heq⟩ := answers_of_mem hresults hmem
    exact dropEmpty_answer heq
  rw [hkept, filterMap_some]

lemma Segmented.dropEmpty (h : Segmented messages) : Segmented (messages.filterMap dropEmpty) := by
  induction h with
  | nil => exact .nil
  | @cons speaker results rest hspeaker hresults hnodup hrest ih =>
    rw [filterMap_cons, filterMap_append, filterMap_results hresults]
    rcases dropEmpty_cases speaker with ⟨kept, hkept, hcalls, hanswers⟩ | ⟨hdrop, hcalls, -⟩
    · rw [hkept]
      refine .cons (hanswers.trans hspeaker) ?_ ?_ ih
      · rw [hcalls, hresults]
      · rwa [hcalls]
    · -- a dropped speaker called nothing, so it has no results
      rw [hcalls, map_nil, map_eq_nil_iff] at hresults
      rw [hdrop, hresults]
      exact ih

lemma calls_dropEmpty (messages : List SDKMessage) : (messages.filterMap dropEmpty).flatMap calls = messages.flatMap calls := by
  induction messages with
  | nil => rfl
  | cons message messages ih =>
    rw [filterMap_cons, flatMap_cons, ← ih]
    rcases dropEmpty_cases message with ⟨kept, hkept, hcalls, -⟩ | ⟨hdrop, hcalls, -⟩
    · rw [hkept, flatMap_cons, hcalls]
    · rw [hdrop, hcalls, nil_append]

lemma calls_sanitize (message : SDKMessage) : calls (sanitizeMessage message) = (calls message).map sanitizeToolCallID := by
  cases message with
  | assistant content =>
    simp only [sanitizeMessage, calls, filterMap_map, map_filterMap]
    refine filterMap_congr fun part _ => ?_
    cases part with
    | toolCall => rfl
    | _ => rfl
  | _ => rfl

lemma answers_sanitize (message : SDKMessage) :
    answers (sanitizeMessage message) = (answers message).map sanitizeToolCallID := by
  cases message with
  | tool => rfl
  | _ => rfl

lemma calls_map_sanitize (messages : List SDKMessage) :
    (messages.map sanitizeMessage).flatMap calls = (messages.flatMap calls).map sanitizeToolCallID := by
  rw [flatMap_map, map_flatMap]
  exact flatMap_congr fun message _ => calls_sanitize message

lemma Segmented.sanitize (h : Segmented messages) (hids : ((messages.flatMap calls).map sanitizeToolCallID).Nodup) :
    Segmented (messages.map sanitizeMessage) := by
  induction h with
  | nil => exact .nil
  | @cons speaker results rest hspeaker hresults hnodup hrest ih =>
    rw [flatMap_cons, map_append, nodup_append, flatMap_append, map_append] at hids
    rw [map_cons, map_append]
    refine .cons ?_ ?_ ?_ (ih (nodup_append.mp hids.2.1).2.1)
    · rw [answers_sanitize, hspeaker]
      rfl
    · have hanswers : (results.map sanitizeMessage).map answers = (results.map answers).map (Option.map sanitizeToolCallID) := by
        rw [map_map, map_map]
        exact map_congr_left fun message _ => answers_sanitize message
      rw [hanswers, hresults, calls_sanitize, map_map, map_map]
      rfl
    · rw [calls_sanitize]
      exact hids.1

def shape (message : SDKMessage) : List String × Option String := (calls message, answers message)

lemma Segmented.of_shape (h : Segmented messages) (hshape : messages'.map shape = messages.map shape) :
    Segmented messages' := by
  induction h generalizing messages' with
  | nil =>
    obtain rfl := map_eq_nil_iff.mp hshape
    exact .nil
  | @cons speaker results rest hspeaker hresults hnodup hrest ih =>
    rw [map_cons, map_append] at hshape
    obtain ⟨speaker', tail, rfl, hhead, htail⟩ := map_eq_cons_iff.mp hshape
    obtain ⟨results', rest', rfl, hresults', hrest'⟩ := map_eq_append_iff.mp htail
    have hcalls : calls speaker' = calls speaker := congrArg Prod.fst hhead
    have hanswers : answers speaker' = answers speaker := congrArg Prod.snd hhead
    have hmap : results'.map answers = results.map answers := by
      have h := congrArg (List.map Prod.snd) hresults'
      rwa [map_map, map_map] at h
    exact .cons (hanswers.trans hspeaker) (by rw [hmap, hresults, hcalls]) (hcalls ▸ hnodup) (ih hrest')

lemma shape_markFirst (messages : List SDKMessage) : (markFirst messages).map shape = messages.map shape := by
  fun_induction markFirst messages with
  | case1 => rfl
  | case2 => rfl
  | case3 message rest _ ih => rw [map_cons, map_cons, ih]

lemma shape_caching (messages : List SDKMessage) : (applyAnthropicCaching messages).map shape = messages.map shape := by
  unfold applyAnthropicCaching
  rw [map_reverse, shape_markFirst, map_reverse, reverse_reverse]

lemma calls_of_shape (h : messages'.map shape = messages.map shape) :
    messages'.flatMap calls = messages.flatMap calls := by
  have hflat (l : List SDKMessage) : l.flatMap calls = (l.map shape).flatMap Prod.fst := by
    rw [flatMap_map]
    rfl
  rw [hflat, hflat, h]

lemma toModelMessages_of_other (h : isAnthropicPackage model.npm = false) (messages : List WithParts) :
    toModelMessages messages model = coreMessages messages model := by
  unfold toModelMessages normalizeMessages
  rw [if_neg (by rw [h]; decide)]

def normalized (messages : List WithParts) (model : Model) : List SDKMessage :=
  let result := (coreMessages messages model).filterMap dropEmpty
  if includes model.id "claude" then result.map sanitizeMessage else result

lemma shape_toModelMessages (h : isAnthropicPackage model.npm = true) (messages : List WithParts) :
    (toModelMessages messages model).map shape = (normalized messages model).map shape := by
  unfold toModelMessages normalizeMessages
  rw [if_pos h]
  exact shape_caching _

/-- Every call answered once behind it, before and after the normalisation, under an id of its own. -/
structure CallsPaired (messages : List WithParts) (model : Model) : Prop where
  core : Paired (coreMessages messages model)
  sent : Paired (toModelMessages messages model)
  distinct : ((toModelMessages messages model).flatMap calls).Nodup

def codeUnits (text : String) : List Char := text.toList.flatMap fun c => List.replicate (Utf16.units c) c

def Blurs (c : Char) : Prop := c = '_' ∨ wireSafe c = false

def Clash (id id' : String) : Prop :=
  List.Forall₂ (fun c d => c = d ∨ Blurs c ∧ Blurs d) (codeUnits id) (codeUnits id')

lemma isAlphanum_lt {c : Char} (h : c.isAlphanum = true) : c.toNat < 128 := by
  simp only [Char.isAlphanum, Char.isAlpha, Char.isUpper, Char.isLower, Char.isDigit, Bool.or_eq_true, Bool.and_eq_true,
    decide_eq_true_eq] at h
  have hval : c.toNat = c.val.toNat := rfl
  rw [hval]
  simp only [UInt32.le_iff_toNat_le] at h
  rcases h with (⟨-, h⟩ | ⟨-, h⟩) | ⟨-, h⟩
  · exact h.trans_lt (by decide)
  · exact h.trans_lt (by decide)
  · exact h.trans_lt (by decide)

lemma wireText_eq (text : String) : wireText text = (codeUnits text).map fun c => if wireSafe c then c else '_' := by
  unfold wireText codeUnits
  rw [map_flatMap]
  refine flatMap_congr fun c _ => ?_
  rw [map_replicate]
  by_cases hsafe : wireSafe c = true
  · -- a safe character is ASCII
    have hunits : Utf16.units c = 1 := by
      simp only [wireSafe, Bool.or_eq_true, decide_eq_true_eq] at hsafe
      obtain (halnum | rfl) | rfl := hsafe
      · exact if_pos ((isAlphanum_lt halnum).trans (by decide))
      · rfl
      · rfl
    rw [if_pos hsafe, if_pos hsafe, hunits]
    rfl
  · rw [if_neg hsafe, if_neg hsafe]

lemma blurred_eq_iff (c d : Char) :
    (if wireSafe c then c else '_') = (if wireSafe d then d else '_') ↔ c = d ∨ Blurs c ∧ Blurs d := by
  have hunderscore : wireSafe '_' = true := by decide
  unfold Blurs
  cases hc : wireSafe c with
  | true | false =>
    cases hd : wireSafe d with
    | true | false => grind

lemma sanitize_eq_iff (id id' : String) : sanitizeToolCallID id = sanitizeToolCallID id' ↔ Clash id id' := by
  unfold sanitizeToolCallID Clash
  rw [String.ofList_inj, wireText_eq, wireText_eq, ← List.forall₂_eq_eq_eq, List.forall₂_map_left_iff,
    List.forall₂_map_right_iff]
  simp only [blurred_eq_iff]

def IdsApart (messages : List WithParts) (model : Model) : Prop :=
  isAnthropicPackage model.npm = true → includes model.id "claude" = true → (sentIds messages).Pairwise (¬ Clash · ·)

lemma idsApart_iff (ids : List String) : ids.Pairwise (¬ Clash · ·) ↔ (ids.map sanitizeToolCallID).Nodup := by
  unfold List.Nodup
  rw [pairwise_map]
  refine List.Pairwise.iff fun id id' => ?_
  rw [Ne, sanitize_eq_iff]

lemma sentIds_nodup {messages : List WithParts} (h : (toolIds messages).Nodup) : (sentIds messages).Nodup := by
  refine h.sublist ?_
  unfold sentIds toolIds
  rw [filterMap_flatMap]
  induction messages with
  | nil => exact List.Sublist.refl _
  | cons message messages ih =>
    rw [flatMap_cons, flatMap_cons]
    have hrest : (toolIds messages).Nodup := by
      unfold toolIds at h ⊢
      rw [flatMap_cons, filterMap_append] at h
      exact (nodup_append.mp h).2.1
    refine List.Sublist.append ?_ (ih hrest)
    unfold sentIdsOf
    cases message.info with
    | user info => exact nil_sublist _
    | assistant info =>
      dsimp only
      split_ifs
      · exact nil_sublist _
      · exact List.Sublist.refl _

/-- Calls and results stay paired exactly while the rewritten ids stay apart. -/
theorem calls_paired_iff (messages : List WithParts) (model : Model) (hids : (toolIds messages).Nodup) :
    CallsPaired messages model ↔ IdsApart messages model := by
  obtain ⟨hcore, hcalls⟩ := core_segmented messages model hids
  have hsent := sentIds_nodup hids
  cases hpackage : isAnthropicPackage model.npm with
  | false =>
    have heq := toModelMessages_of_other hpackage messages
    constructor
    · intro _ hpackage'
      rw [hpackage] at hpackage'
      cases hpackage'
    · intro _
      refine ⟨hcore.paired, ?_, ?_⟩
      · rw [heq]
        exact hcore.paired
      · rwa [heq, hcalls]
  | true =>
    have hshape := shape_toModelMessages hpackage messages
    have hsame := calls_of_shape hshape
    have hkept := hcore.dropEmpty
    have hkeptCalls := (calls_dropEmpty (coreMessages messages model)).trans hcalls
    cases hclaude : includes model.id "claude" with
    | false =>
      have hnormal : normalized messages model = (coreMessages messages model).filterMap dropEmpty :=
        if_neg (by rw [hclaude]; decide)
      rw [hnormal] at hshape hsame
      constructor
      · intro _ _ hclaude'
        rw [hclaude] at hclaude'
        cases hclaude'
      · intro _
        refine ⟨hcore.paired, (hkept.of_shape hshape).paired, ?_⟩
        rwa [hsame, hkeptCalls]
    | true =>
      have hnormal : normalized messages model = ((coreMessages messages model).filterMap dropEmpty).map sanitizeMessage :=
        if_pos hclaude
      rw [hnormal] at hshape hsame
      rw [calls_map_sanitize, hkeptCalls] at hsame
      constructor
      · intro h _ _
        rw [idsApart_iff, ← hsame]
        exact h.distinct
      · intro h
        have hapart := (idsApart_iff _).mp (h hpackage hclaude)
        have hrewritten := hkept.sanitize (by rwa [hkeptCalls])
        refine ⟨hcore.paired, (hrewritten.of_shape hshape).paired, ?_⟩
        rwa [hsame]

namespace ProviderSample

def claude : Model := ⟨"anthropic", "claude-opus-4-5", some "@ai-sdk/anthropic"⟩

def toolPart (callID : String) : Part := .tool ⟨callID, "s", "m"⟩ callID "bash" (.completed [] "ok" "" [] 1 2)

/-- One step of an assistant that called `bash` under each of the ids. -/
def step (callIDs : List String) : WithParts :=
  ⟨.assistant ⟨"m", "s", 1, some 2, "u", "glm", "zai", "main", none, ⟨0, 0, 0, 0, 0⟩, some "tool-calls"⟩, callIDs.map toolPart⟩

theorem calls_paired_step :
    CallsPaired [step ["call.1", "call.2"]] claude ↔ IdsApart [step ["call.1", "call.2"]] claude :=
  calls_paired_iff [step ["call.1", "call.2"]] claude (by decide)

/-- Two ids that differ become one when sent to Claude. -/
theorem calls_merged :
    (toolIds [step ["bash.1", "bash:1"]]).Nodup ∧ ¬ CallsPaired [step ["bash.1", "bash:1"]] claude := by
  constructor
  · decide
  · intro h
    have hmerged : (toModelMessages [step ["bash.1", "bash:1"]] claude).flatMap calls = ["bash_1", "bash_1"] := by decide
    have hdistinct := h.distinct
    rw [hmerged] at hdistinct
    exact absurd hdistinct (by decide)

end ProviderSample

end Provider
end OpenOmni

/-
What a page shows of a chat, after any actions: messages with different
keys in the order of their times, 500 at most, each the one received last
under its key and not deleted since (`Shown`).

Receiving is `Recent.receive`: where messages differ in key and in time
the page shows the latest of them, in whatever order and however often
they came.
-/
import StreamBrew.Chat.StreamReducer
import StreamBrew.Lib.Run

namespace StreamBrew.Chat.Page

open Run (run)

-- ================================= receiving

/-- The insertion is that of the library. -/
theorem insertSorted_eq (messages : List ChatMessage)
    (received : ChatMessage) :
    insertSorted messages received
      = Recent.place ChatMessage.occurredAt received messages := by
  induction messages with
  | nil => rfl
  | cons message messages ih =>
      unfold insertSorted Recent.place at ih ⊢
      simp only at ih ⊢
      rw [List.findIdx?_cons]
      by_cases hlater : received.occurredAt < message.occurredAt
      · rw [if_pos (by simpa using hlater),
          List.takeWhile_cons_of_neg (by simpa using hlater),
          List.dropWhile_cons_of_neg (by simpa using hlater)]
        rfl
      · rw [if_neg (by simpa using hlater),
          List.takeWhile_cons_of_pos (by simpa using hlater),
          List.dropWhile_cons_of_pos (by simpa using hlater)]
        refine Eq.trans ?_ (congrArg (message :: ·) ih)
        cases messages.findIdx? fun message =>
            received.occurredAt < message.occurredAt with
        | none => rfl
        | some insertion => rfl

theorem receiveMessage_eq (messages : List ChatMessage)
    (received : ChatMessage) :
    receiveMessage messages received
      = Recent.receive chatMessageKey ChatMessage.occurredAt 500 messages
        received :=
  congrArg (List.rtake · 500)
    (insertSorted_eq (Recent.remove chatMessageKey (chatMessageKey received)
      messages) received)

theorem reducer_message (state : StreamState) (message : ChatMessage) :
    (reducer state (.event (.message message))).messages
      = receiveMessage state.messages message := by
  simp only [reducer]

-- =================================== history

/-- The message that an action brings in. -/
def received : StreamAction → Option ChatMessage
  | .event (.message message) => some message
  | _ => none

/-- The source and the message that an action takes away. -/
def deleted : StreamAction → Option (String × String)
  | .messageRemoved sourceId messageId => some (sourceId, messageId)
  | .event (.messageDeleted sourceId messageId) => some (sourceId, messageId)
  | _ => none

/-- Received last under its key, and since then neither deleted nor
cleared with all others. -/
def Shown (actions : List StreamAction) (message : ChatMessage) : Prop :=
  ∃ before after,
    actions = before ++ .event (.message message) :: after
      ∧ ∀ action ∈ after, action ≠ .reset
        ∧ (∀ other, received action = some other →
          chatMessageKey other ≠ chatMessageKey message)
        ∧ deleted action ≠ some (message.sourceId, message.id)

section Shown

variable {actions : List StreamAction} {action : StreamAction}
  {message : ChatMessage}

theorem shown_received (actions : List StreamAction) (message : ChatMessage) :
    Shown (actions ++ [.event (.message message)]) message :=
  ⟨actions, [], rfl, fun _ h => nomatch h⟩

/-- What is shown is shown until an action takes it away or replaces it. -/
theorem Shown.snoc (h : Shown actions message) (hreset : action ≠ .reset)
    (hreceived : ∀ other, received action = some other →
      chatMessageKey other ≠ chatMessageKey message)
    (hdeleted : deleted action ≠ some (message.sourceId, message.id)) :
    Shown (actions ++ [action]) message := by
  obtain ⟨before, after, rfl, hafter⟩ := h
  refine ⟨before, after ++ [action], by simp, fun other hother => ?_⟩
  rcases List.mem_append.mp hother with hother | hother
  · exact hafter other hother
  · rw [List.mem_singleton.mp hother]
    exact ⟨hreset, hreceived, hdeleted⟩

end Shown

-- ================================= invariant

/-- The messages shown after some actions. -/
structure Feed (actions : List StreamAction) (messages : List ChatMessage) :
    Prop where
  ordered : Recent.Ordered chatMessageKey ChatMessage.occurredAt 500 messages
  shown : ∀ message ∈ messages, Shown actions message

section Steps

variable {actions : List StreamAction} {messages : List ChatMessage}

/-- An action that has nothing to do with messages. -/
theorem Feed.quiet {action : StreamAction} (h : Feed actions messages)
    (hreset : action ≠ .reset) (hreceived : received action = none)
    (hdeleted : deleted action = none) :
    Feed (actions ++ [action]) messages where
  ordered := h.ordered
  shown message hmessage := by
    refine (h.shown message hmessage).snoc hreset (fun other hother => ?_) ?_
    · rw [hreceived] at hother
      cases hother
    · rw [hdeleted]
      exact fun hnone => nomatch hnone

theorem mem_removeMessage {sourceId messageId : String}
    {message : ChatMessage} :
    message ∈ removeMessage sourceId messageId messages ↔ message ∈ messages
      ∧ (sourceId, messageId) ≠ (message.sourceId, message.id) := by
  unfold removeMessage
  rw [List.mem_filter]
  simp
  tauto

/-- A deleted message is gone. -/
theorem Feed.remove {action : StreamAction} {sourceId messageId : String}
    (h : Feed actions messages)
    (hreset : action ≠ .reset) (hreceived : received action = none)
    (hdeleted : deleted action = some (sourceId, messageId)) :
    Feed (actions ++ [action]) (removeMessage sourceId messageId messages) where
  ordered := h.ordered.sublist List.filter_sublist
  shown message hmessage := by
    obtain ⟨hmem, hne⟩ := mem_removeMessage.mp hmessage
    refine (h.shown message hmem).snoc hreset (fun other hother => ?_) ?_
    · rw [hreceived] at hother
      cases hother
    · rw [hdeleted]
      exact fun heq => hne (Option.some.inj heq)

theorem Feed.receive (h : Feed actions messages) (message : ChatMessage) :
    Feed (actions ++ [.event (.message message)])
      (receiveMessage messages message) where
  ordered := by
    rw [receiveMessage_eq]
    exact h.ordered.receive message
  shown other hother := by
    rw [receiveMessage_eq] at hother
    rcases Recent.mem_receive hother with rfl | ⟨hmem, hkey⟩
    · exact shown_received actions other
    · refine (h.shown other hmem).snoc (fun hreset => nomatch hreset)
        (fun last hlast => ?_) (fun hdeleted => nomatch hdeleted)
      cases hlast
      exact hkey.symm

/-- One action keeps what is said of the messages. -/
theorem Feed.step {state : StreamState} (h : Feed actions state.messages)
    (action : StreamAction) :
    Feed (actions ++ [action]) (reducer state action).messages := by
  cases action with
  | reset => exact ⟨Recent.Ordered.nil, fun _ hmem => nomatch hmem⟩
  | connected => exact h.quiet (fun hreset => nomatch hreset) rfl rfl
  | transportFailed code => exact h.quiet (fun hreset => nomatch hreset) rfl rfl
  | messageRemoved sourceId messageId =>
      exact h.remove (fun hreset => nomatch hreset) rfl rfl
  | event event =>
      cases event with
      | message message =>
          rw [reducer_message]
          exact h.receive message
      | messageDeleted sourceId messageId =>
          exact h.remove (fun hreset => nomatch hreset) rfl rfl
      | state sourceId state detail =>
          exact h.quiet (fun hreset => nomatch hreset) rfl rfl
      | connectionError code detail =>
          exact h.quiet (fun hreset => nomatch hreset) rfl rfl

end Steps

theorem feed_run (actions : List StreamAction) :
    Feed actions (run reducer initialState actions).messages := by
  induction actions using List.reverseRecOn with
  | nil => exact ⟨Recent.Ordered.nil, fun _ hmem => nomatch hmem⟩
  | append_singleton actions action ih =>
      rw [Run.run_snoc]
      exact ih.step action

/-- Messages alone are received one after the other. -/
theorem run_messages (messages : List ChatMessage) :
    (run reducer initialState
        (messages.map fun message => .event (.message message))).messages
      = messages.foldl (Recent.receive chatMessageKey ChatMessage.occurredAt
          500) [] := by
  induction messages using List.reverseRecOn with
  | nil => rfl
  | append_singleton messages message ih =>
      rw [List.map_append, List.map_singleton, Run.run_snoc, List.foldl_append,
        ← ih, reducer_message, receiveMessage_eq, List.foldl_cons,
        List.foldl_nil]

/-- After any actions the messages have different keys, are in the order
of their times and 500 at most, and each was received last under its key
and not deleted since; and of messages that differ in key and in time the
latest 500 are shown, however they came. -/
theorem reducer_messages :
    (∀ actions : List StreamAction,
      let messages := (run reducer initialState actions).messages
      (messages.map chatMessageKey).Nodup
        ∧ messages.Pairwise (fun m m' => m.occurredAt ≤ m'.occurredAt)
        ∧ messages.length ≤ 500
        ∧ ∀ message ∈ messages, Shown actions message)
      ∧ ∀ messages : List ChatMessage,
        (∀ m ∈ messages, ∀ m' ∈ messages, m ≠ m' →
          chatMessageKey m ≠ chatMessageKey m' ∧ m.occurredAt ≠ m'.occurredAt) →
        (run reducer initialState
            (messages.map fun message => .event (.message message))).messages
          = ((messages.dedup).mergeSort
              fun m m' => m.occurredAt ≤ m'.occurredAt).rtake 500 := by
  refine ⟨fun actions => ?_, fun messages hdistinct => ?_⟩
  · have h := feed_run actions
    exact ⟨h.ordered.distinct, h.ordered.sorted, h.ordered.length_le, h.shown⟩
  · rw [run_messages]
    refine Recent.foldl_receive fun m hm m' hm' hsame => ?_
    by_contra hne
    obtain ⟨hkey, htime⟩ := hdistinct m hm m' hm' hne
    exact hsame.elim hkey htime

/-- A message of the run below. -/
private def sample (id : String) (occurredAt : Int) : ChatMessage :=
  ⟨id, "s", "c", "twitch", ⟨"a", "A"⟩, "", occurredAt⟩

/-- The later of two first, and once more at the end. -/
theorem reducer_messages_repeated :
    (run reducer initialState (([sample "2" 20, sample "1" 10,
        sample "2" 20]).map fun message => .event (.message message))).messages
      = [sample "1" 10, sample "2" 20] := by
  have hdedup : [sample "2" 20, sample "1" 10, sample "2" 20].dedup
      = [sample "1" 10, sample "2" 20] := by decide
  refine (reducer_messages.2 _ (by decide)).trans ?_
  rw [hdedup, List.mergeSort_of_pairwise (by decide)]
  exact Recent.rtake_eq_self (by decide)

end StreamBrew.Chat.Page

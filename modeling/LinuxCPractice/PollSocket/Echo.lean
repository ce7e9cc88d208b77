import LinuxCPractice.PollSocket.Invariant
import Mathlib.Data.List.Forall2

/-!
# What a client gets back

The server sends `strlen(buffer) + 1` bytes for every chunk it receives. This is
the chunk and one NUL when the chunk holds no NUL and leaves room for one in the
buffer. A NUL in the chunk cuts the reply short, a full buffer makes `strlen`
run on into the stack, and the bytes a short `send` leaves over are never sent.
-/

namespace LinuxCPractice
namespace PollSocket

open Server

/-! ## One chunk and its reply -/

/-- The buffer after `recv` has stored a chunk in it. -/
def filled (chunk : List UInt8) : List UInt8 :=
  chunk ++ List.replicate (64 - chunk.length) 0

/-- A clean chunk with room for a NUL is sent back with that NUL. -/
theorem message_of_clean {chunk : List UInt8} (clean : 0 ∉ chunk)
    (room : chunk.length ≤ 63)
    (beyond : List UInt8) : message (filled chunk) beyond = chunk ++ [0] := by
  obtain ⟨count, padding⟩ : ∃ count, 64 - chunk.length = count + 1 :=
    ⟨63 - chunk.length, by omega⟩
  have memory : filled chunk ++ beyond ++ [0] =
      chunk ++ 0 :: (List.replicate count 0 ++ (beyond ++ [0])) := by
    simp [filled, padding, List.replicate_succ]
  rw [message, memory, CString.strlen_append_of_notMem clean,
    CString.strlen_zero_cons, Nat.add_zero, List.take_length_add_append]
  rfl

/-- A NUL in the chunk cuts the reply short. -/
theorem length_message_of_nul {chunk : List UInt8} (nul : 0 ∈ chunk)
    (beyond : List UInt8) :
    (message (filled chunk) beyond).length ≤ chunk.length := by
  have memory : filled chunk ++ beyond ++ [0] =
      chunk ++ (List.replicate (64 - chunk.length) 0 ++ (beyond ++ [0])) := by
    simp [filled]
  have shorter := CString.strlen_append_lt_of_mem nul
    (List.replicate (64 - chunk.length) 0 ++ (beyond ++ [0]))
  rw [message, memory, List.length_take]
  omega

/-- A clean chunk that fills the buffer makes the reply run on behind it. -/
theorem length_message_of_full {chunk : List UInt8} (clean : 0 ∉ chunk)
    (full : chunk.length = 64) (beyond : List UInt8) :
    64 < (message (filled chunk) beyond).length := by
  have memory : filled chunk ++ beyond ++ [0] = chunk ++ (beyond ++ [0]) := by
    simp [filled, full]
  rw [message, memory, CString.strlen_append_of_notMem clean, List.length_take,
    List.length_append, List.length_append, List.length_singleton, full]
  omega

/-- The bytes a `send` puts on the connection. -/
def delivered (reply : List UInt8 × SendResult) : List UInt8 :=
  match reply.2 with
  | .sent count => reply.1.take count
  | .failed | .killed => []

/-- The reply is what the code sends for the chunk. -/
def Answers (chunk : List UInt8) (reply : List UInt8 × SendResult) : Prop :=
  (1 ≤ chunk.length ∧ chunk.length ≤ 64) ∧
    (∃ beyond, reply.1 = message (filled chunk) beyond) ∧
    ∀ count, reply.2 = .sent count → count ≤ reply.1.length

/-- The chunk is echoed in full: it has no NUL, leaves room for one and the
whole reply is taken by `send`. -/
def Echoed (chunk : List UInt8) (reply : List UInt8 × SendResult) : Prop :=
  0 ∉ chunk ∧ chunk.length ≤ 63 ∧ reply.2 = .sent (chunk.length + 1)

/-- An echo delivers the chunk and a NUL. -/
theorem delivered_of_echoed {chunk : List UInt8}
    {reply : List UInt8 × SendResult}
    (answers : Answers chunk reply) (echoed : Echoed chunk reply) :
    delivered reply = chunk ++ [0] ∧ reply.1.length ≤ 64 := by
  obtain ⟨_, ⟨beyond, text⟩, _⟩ := answers
  obtain ⟨clean, room, whole⟩ := echoed
  rw [message_of_clean clean room] at text
  rw [delivered, whole, text]
  refine ⟨List.take_of_length_le (by simp), ?_⟩
  rw [List.length_append, List.length_singleton]
  omega

/-- Within the buffer a reply delivers at most the chunk and a NUL. -/
theorem length_delivered_le {chunk : List UInt8}
    {reply : List UInt8 × SendResult}
    (answers : Answers chunk reply) (inside : reply.1.length ≤ 64) :
    (delivered reply).length ≤ (chunk ++ [0]).length := by
  obtain ⟨size, ⟨beyond, text⟩, _⟩ := answers
  have short : (delivered reply).length ≤ reply.1.length := by
    rw [delivered]
    split
    · exact List.length_take_le' _ _
    · exact Nat.zero_le _
    · exact Nat.zero_le _
  rw [List.length_append, List.length_singleton]
  by_cases nul : 0 ∈ chunk
  · have := length_message_of_nul nul beyond
    rw [← text] at this
    omega
  · by_cases full : chunk.length = 64
    · omega
    · rw [text, message_of_clean nul (by omega)] at short
      simpa using short

/-- Within the buffer only an echo delivers the chunk and a NUL. -/
theorem echoed_of_delivered {chunk : List UInt8}
    {reply : List UInt8 × SendResult}
    (answers : Answers chunk reply) (inside : reply.1.length ≤ 64)
    (whole : delivered reply = chunk ++ [0]) : Echoed chunk reply := by
  obtain ⟨size, ⟨beyond, text⟩, taken⟩ := answers
  have length := congrArg List.length whole
  rw [List.length_append, List.length_singleton, delivered] at length
  split at length
  · rename_i count result
    have limit := taken count result
    rw [List.length_take] at length
    have clean : 0 ∉ chunk := by
      intro nul
      have := length_message_of_nul nul beyond
      rw [← text] at this
      omega
    have room : chunk.length ≤ 63 := by
      by_contra full
      have := length_message_of_full clean (by omega) beyond
      rw [← text] at this
      omega
    refine ⟨clean, room, ?_⟩
    rw [text, message_of_clean clean room, List.length_append,
      List.length_singleton] at limit
    rw [result]
    congr 1
    omega
  · simp at length
  · simp at length

/-! ## A whole conversation -/

/-- No more is delivered than was received, with a NUL for each chunk. -/
theorem length_flatMap_delivered_le {chunks : List (List UInt8)}
    {replies : List (List UInt8 × SendResult)}
    (answers : List.Forall₂ Answers chunks replies)
    (inside : ∀ reply ∈ replies, reply.1.length ≤ 64) :
    (replies.flatMap delivered).length ≤
      (chunks.flatMap (· ++ [0])).length := by
  induction answers with
  | nil => exact Nat.le_refl _
  | cons first _ inductionHypothesis =>
      rw [List.flatMap_cons, List.flatMap_cons, List.length_append,
        List.length_append]
      exact Nat.add_le_add
        (length_delivered_le first (inside _ List.mem_cons_self))
        (inductionHypothesis fun reply member =>
          inside reply (List.mem_cons_of_mem _ member))

/-- The replies deliver the chunks, each followed by one NUL, and stay within
the buffer exactly when every single chunk is echoed in full. -/
theorem flatMap_delivered_iff {chunks : List (List UInt8)}
    {replies : List (List UInt8 × SendResult)}
    (answers : List.Forall₂ Answers chunks replies) :
    (replies.flatMap delivered = chunks.flatMap (· ++ [0]) ∧
        ∀ reply ∈ replies, reply.1.length ≤ 64) ↔
      List.Forall₂ Echoed chunks replies := by
  induction answers with
  | nil => simp
  | @cons chunk reply chunks replies first rest inductionHypothesis =>
      constructor
      · rintro ⟨same, inside⟩
        have firstInside := inside _ List.mem_cons_self
        have restInside :
            ∀ reply ∈ replies, reply.1.length ≤ 64 := fun reply member =>
          inside reply (List.mem_cons_of_mem _ member)
        have firstLength := length_delivered_le first firstInside
        have restLength := length_flatMap_delivered_le rest restInside
        rw [List.flatMap_cons, List.flatMap_cons] at same
        have total := congrArg List.length same
        rw [List.length_append, @List.length_append _ (chunk ++ [0])] at total
        obtain ⟨firstSame, restSame⟩ := List.append_inj same (by omega)
        exact .cons (echoed_of_delivered first firstInside firstSame)
          (inductionHypothesis.mp ⟨restSame, restInside⟩)
      · intro echoed
        obtain ⟨firstEchoed, restEchoed⟩ := List.forall₂_cons.mp echoed
        obtain ⟨firstWhole, firstInside⟩ :=
          delivered_of_echoed first firstEchoed
        obtain ⟨restWhole, restInside⟩ := inductionHypothesis.mpr restEchoed
        refine ⟨by
          rw [List.flatMap_cons, List.flatMap_cons, firstWhole, restWhole], ?_⟩
        intro other member
        rcases List.mem_cons.mp member with rfl | later
        · exact firstInside
        · exact restInside other later

/-- What was received on a connection and what was sent back on it. -/
structure Conversation where
  received : List (List UInt8)
  replies : List (List UInt8 × SendResult)

/-- Follow one descriptor through the log. A new connection starts afresh. -/
def Conversation.apply (fd : Int) (conversation : Conversation) :
    Entry → Conversation
  | .accept (.ok opened) => if opened = fd then ⟨[], []⟩ else conversation
  | .recv source (.data chunk) =>
      if source = fd then
        { conversation with received := conversation.received ++ [chunk] }
      else conversation
  | .send target text result =>
      if target = fd then
        { conversation with replies := conversation.replies ++
          [(text, result)] }
      else conversation
  | _ => conversation

/-- The conversation on a descriptor since it was last accepted. -/
def conversation (log : List Entry) (fd : Int) : Conversation :=
  log.foldl (Conversation.apply fd) ⟨[], []⟩

/-- One entry more of a conversation. -/
theorem conversation_concat (log : List Entry) (entry : Entry) (fd : Int) :
    conversation (log ++ [entry]) fd = (conversation log fd).apply fd entry :=
  List.foldl_concat _ _ _ _

/-- Closing adds nothing to a conversation. -/
theorem conversation_append_closes (log : List Entry) (closed : List Int)
    (fd : Int) :
    conversation (log ++ closed.map .close) fd = conversation log fd := by
  induction closed generalizing log with
  | nil => rw [List.map_nil, List.append_nil]
  | cons first closed inductionHypothesis =>
      rw [List.map_cons, List.append_cons, inductionHypothesis,
        conversation_concat]
      rfl

/-- Closing an entry adds nothing to a conversation. -/
theorem conversation_closeEntry (server : Server) (inside : server.i < 32)
    (fd : Int) :
    conversation (server.closeEntry inside).log fd =
      conversation server.log fd :=
  conversation_concat _ _ fd

/-! ## The conversations of a run -/

/-- The connection whose chunk stands in the buffer and waits for its reply. -/
def Server.awaiting (server : Server) : Option Int :=
  if server.pc = .send then server.fds[server.i]?.map Pollfd.fd else none

theorem awaiting_of_ne {server : Server} (elsewhere : server.pc ≠ .send) :
    server.awaiting = none := if_neg elsewhere

theorem awaiting_of_send {server : Server} (pc : server.pc = .send)
    (inside : server.i < 32) :
    server.awaiting = some server.fds[server.i].fd := by
  simp [Server.awaiting, pc, inside]

/-- Every chunk has its reply, but for one that waits in the buffer. -/
structure Conversing (server : Server) : Prop where
  answered : ∀ fd, server.awaiting ≠ some fd →
    List.Forall₂ Answers (conversation server.log fd).received
      (conversation server.log fd).replies
  waiting : ∀ fd, server.awaiting = some fd → ∃ answered chunk,
    (conversation server.log fd).received = answered ++ [chunk] ∧
      server.buffer = filled chunk ∧ (1 ≤ chunk.length ∧ chunk.length ≤ 64) ∧
      List.Forall₂ Answers answered (conversation server.log fd).replies

namespace Conversing

variable {server next : Server}

/-- When no chunk waits, every conversation is complete. -/
theorem of_atRest (atRest : next.awaiting = none) {talks : Int → Conversation}
    (talk : ∀ fd, conversation next.log fd = talks fd)
    (complete : ∀ fd, List.Forall₂ Answers (talks fd).received
      (talks fd).replies) :
    Conversing next where
  answered fd _ := by
    rw [talk fd]
    exact complete fd
  waiting fd waits := by simp [atRest] at waits

/-- When none awaits a reply each chunk has its own. -/
theorem complete (conversing : Conversing server)
    (atRest : server.awaiting = none) (fd : Int) :
    List.Forall₂ Answers (conversation server.log fd).received
      (conversation server.log fd).replies :=
  conversing.answered fd (by simp [atRest])

/-- A step that neither receives nor sends nor opens a connection. -/
theorem quiet (conversing : Conversing server) (before : server.awaiting = none)
    (after : next.awaiting = none)
    (same : ∀ fd, conversation next.log fd = conversation server.log fd) :
    Conversing next :=
  of_atRest after same (conversing.complete before)

/-- A chunk is received and waits for its reply. -/
theorem receive (conversing : Conversing server)
    (before : server.awaiting = none)
    {source : Int} {chunk : List UInt8} (waits : next.awaiting = some source)
    (size : 1 ≤ chunk.length ∧ chunk.length ≤ 64)
    (buffer : next.buffer = filled chunk)
    (log : next.log = server.log ++ [.recv source (.data chunk)]) :
    Conversing next where
  answered fd other := by
    rw [waits] at other
    rw [log, conversation_concat, Conversation.apply,
      if_neg (by simpa using other)]
    exact conversing.complete before fd
  waiting fd same := by
    rw [waits] at same
    rw [log, conversation_concat, Conversation.apply,
      if_pos (by simpa using same)]
    exact ⟨_, chunk, rfl, buffer, size, conversing.complete before fd⟩

/-- The chunk that waits gets its reply. -/
theorem reply (conversing : Conversing server) {fd : Int}
    (waits : server.awaiting = some fd)
    {beyond : List UInt8} {result : SendResult}
    (limit : ∀ count, result = .sent count →
      count ≤ (message server.buffer beyond).length)
    (other : Int) :
    List.Forall₂ Answers
      ((conversation server.log other).apply other
        (.send fd (message server.buffer beyond) result)).received
      ((conversation server.log other).apply other
        (.send fd (message server.buffer beyond) result)).replies := by
  by_cases same : fd = other
  · obtain ⟨answered, chunk, received, buffer, size, earlier⟩ :=
      conversing.waiting other (same ▸ waits)
    rw [buffer] at limit
    simp only [Conversation.apply, same, if_true, received, buffer]
    exact List.rel_append earlier (.cons ⟨size, ⟨beyond, rfl⟩, limit⟩ .nil)
  · simp only [Conversation.apply, same, if_false]
    exact conversing.answered other (by rw [waits]; simpa using same)

end Conversing

/-- Every step keeps the conversations in order. -/
theorem Transition.conversing {server next : Server} {event : Event}
    (conversing : Conversing server)
    (transition : Transition server event next) :
    Conversing next := by
  cases transition with
  | socketFailed pc | scanned pc | scanOutside pc | scanSkip pc
  | scanListening pc
  | acceptSkipped pc | recvOutside pc | optimized pc | optimizeOutside pc
  | setupContinued pc
  | listening pc =>
      exact conversing.quiet (awaiting_of_ne (by simp [pc]))
        (awaiting_of_ne (by simp [prepareTable, pc])) fun _ => rfl
  | socketOpened pc | setupFailed pc | pollFailed pc | pollReady pc
  | scanReadable pc
  | acceptFailed pc | acceptWouldBlock pc | recvWouldBlock pc =>
      exact conversing.quiet (awaiting_of_ne (by simp [pc]))
        (awaiting_of_ne (by simp))
        fun fd => conversation_concat _ _ fd
  | left pc =>
      exact conversing.quiet (awaiting_of_ne (by simp [pc]))
        (awaiting_of_ne (by simp [out]))
        fun fd => conversation_append_closes _ _ fd
  | sendOutside pc outside =>
      refine conversing.quiet ?_ (awaiting_of_ne (by simp)) fun _ => rfl
      simp [Server.awaiting, outside]
  | @accepted opened pc | @acceptOutside opened pc =>
      refine .of_atRest (awaiting_of_ne (by simp [record, pc]))
        (fun fd => conversation_concat _ _ fd) fun fd => ?_
      rw [Conversation.apply]
      split
      · exact .nil
      · exact conversing.complete (awaiting_of_ne (by simp [pc])) fd
  | @received chunk pc inside nonempty fits =>
      refine conversing.receive (awaiting_of_ne (by simp [pc])) ?_ ⟨nonempty,
        fits⟩ rfl rfl
      simp [Server.awaiting, record, inside]
  | recvClosed pc inside ends =>
      refine conversing.quiet (awaiting_of_ne (by simp [pc]))
        (awaiting_of_ne (by simp [closeEntry])) fun fd => ?_
      refine (conversation_closeEntry (server.record _) inside fd).trans ?_
      rw [record, conversation_concat]
      rcases ends with rfl | rfl | ⟨rfl, _⟩ <;> rfl
  | sent pc inside fits =>
      refine .of_atRest (awaiting_of_ne (by simp))
        (fun fd => conversation_concat _ _ fd)
        (conversing.reply (awaiting_of_send pc inside) ?_)
      rintro _ ⟨⟩
      exact fits
  | sendFailed pc inside =>
      refine .of_atRest (awaiting_of_ne (by simp [closeEntry]))
        (fun fd => (conversation_closeEntry (server.record _) inside fd).trans
          (conversation_concat _ _ fd)) ?_
      exact conversing.reply (awaiting_of_send pc inside) (by simp)
  | sendKilled pc inside =>
      refine .of_atRest (awaiting_of_ne (by simp))
        (fun fd => conversation_concat _ _ fd)
        (conversing.reply (awaiting_of_send pc inside) (by simp))

/-- The conversations are in order after every run. -/
theorem run_conversing {server : Server} {events : List Event}
    (ran : step.run start events = some server) : Conversing server := by
  refine Machine.run_invariant Conversing ?_ ?_ ran
  · intro server event next conversing stepped
    exact (step_transition stepped).conversing conversing
  · exact .of_atRest rfl (fun _ => rfl) fun _ => .nil

/-- After every run, all but at most the last chunk of a conversation have been
answered. The bytes put on the connection are the answered chunks, each followed
by one NUL, and no `send` reads behind the buffer, exactly when every answered
chunk has no NUL and at most 63 bytes and `send` took all of its reply. -/
theorem echo_iff {events : List Event} {server : Server}
    (ran : step.run start events = some server) (fd : Int) :
    ∃ answered pending,
      (conversation server.log fd).received = answered ++ pending ∧
      pending.length ≤ 1 ∧ (server.pc ≠ .send → pending = []) ∧
      (((conversation server.log fd).replies.flatMap delivered =
        answered.flatMap (· ++ [0]) ∧
          ∀ reply ∈ (conversation server.log fd).replies, reply.1.length ≤ 64) ↔
        List.Forall₂ Echoed answered (conversation server.log fd).replies) := by
  have conversing := run_conversing ran
  by_cases waits : server.awaiting = some fd
  · obtain ⟨answered, chunk, received, _, _, answers⟩ :=
      conversing.waiting fd waits
    refine ⟨answered, [chunk], received, Nat.le_refl _, ?_,
      flatMap_delivered_iff answers⟩
    intro elsewhere
    rw [awaiting_of_ne elsewhere] at waits
    cases waits
  · refine ⟨_, [], (List.append_nil _).symm, Nat.zero_le _, fun _ => rfl, ?_⟩
    exact flatMap_delivered_iff (conversing.answered fd waits)

/-- One client is accepted as descriptor 4, sends a chunk and gets a reply. -/
def oneExchange (chunk : List UInt8) (count : Nat) : List Event :=
  prepared ++
    [.poll (.ready [pollIn]), .internal, .accept (.ok 4), .accept .wouldBlock,
      .internal, .internal,
      .poll (.ready [0, pollIn]), .internal, .internal, .recv (.data chunk),
      .send [] (.sent count)]

/-- Of the bytes `a`, NUL, `b` the client gets only `a` and a NUL back. -/
theorem echo_stops_at_nul :
    ¬∀ (events : List Event) (server : Server) (fd : Int),
      step.run start events = some server →
        (∀ beyond, .send beyond .failed ∉ events) →
      server.pc ≠ .send →
      (conversation server.log fd).replies.flatMap delivered =
          (conversation server.log fd).received.flatMap (· ++ [0]) ∧
        ∀ reply ∈ (conversation server.log fd).replies,
          reply.1.length ≤ 64 := by
  intro claimed
  have reached : (step.run start (oneExchange [97, 0, 98] 2)).map
      (fun server => (server.pc, (conversation server.log 4).received,
        (conversation server.log 4).replies)) =
      some (.recv, [[97, 0, 98]], [([97, 0], .sent 2)]) := by decide
  obtain ⟨server, ran, ends⟩ := Option.map_eq_some_iff.mp reached
  simp only [Prod.mk.injEq] at ends
  obtain ⟨pc, received, replies⟩ := ends
  have echoed :=
    (claimed _ server 4 ran (by simp [oneExchange, prepared]) (by simp [pc])).1
  rw [received, replies] at echoed
  exact absurd echoed (by decide)

/-- One chunk of two bytes. -/
theorem echo_iff_oneExchange :
    ∃ server, step.run start (oneExchange [104, 105] 3) = some server ∧
      (conversation server.log 4).replies.flatMap delivered =
        [104, 105, 0] := by
  have reached : (step.run start (oneExchange [104, 105] 3)).map
      (fun server => (server.pc, (conversation server.log 4).received,
        (conversation server.log 4).replies)) =
      some (.recv, [[104, 105]], [([104, 105, 0], .sent 3)]) := by decide
  obtain ⟨server, ran, ends⟩ := Option.map_eq_some_iff.mp reached
  simp only [Prod.mk.injEq] at ends
  obtain ⟨pc, received, replies⟩ := ends
  obtain ⟨answered, pending, split, _, atRest, echoes⟩ := echo_iff ran 4
  rw [received, atRest (by simp [pc]), List.append_nil] at split
  subst answered
  refine ⟨server, ran, (echoes.mpr ?_).1⟩
  rw [replies]
  exact .cons ⟨by decide, by decide, rfl⟩ .nil

end PollSocket
end LinuxCPractice

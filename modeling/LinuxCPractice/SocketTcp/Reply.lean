import LinuxCPractice.SocketTcp.Exchange

/-!
# What the client prints

Whatever has reached the client or is on its way to it is a prefix of the line
that the server has read, followed by a NUL. The client prints that line, and
reads nothing that was not received, exactly when its only `recv` has returned
the whole reply.
-/

namespace LinuxCPractice
namespace SocketTcp

namespace Exchange

/-- The bytes received by the client and those still on their way to it. -/
def delivered (exchange : Exchange) : List UInt8 :=
  exchange.client.printed.elim [] Print.message ++ exchange.reply

/-- The first line of the file that an event opens has no NUL. -/
def CleanLine : Event → Prop
  | .server (.fopen (.opened _ content)) => 0 ∉ Buffer.firstLine content
  | _ => True

instance : DecidablePred CleanLine := by
  intro event
  unfold CleanLine
  split <;> infer_instance

/-- The server is about to send the line to this client. -/
def AtSend (exchange : Exchange) : Prop :=
  exchange.connection = .serving ∧ exchange.server.pc = .send

/-- The server has not read a line for this client. -/
def Unread (exchange : Exchange) : Prop :=
  exchange.connection = .none ∨ exchange.connection = .pending ∨
    (exchange.connection = .serving ∧ exchange.server.pc ≠ .accept ∧
      exchange.server.pc ≠ .send)

/-- The reply is the line with a NUL, and the client has printed what it has
received. -/
structure Replying (exchange : Exchange) : Prop where
  clean : exchange.server.pc = .fgets →
    0 ∉ Buffer.firstLine exchange.server.content
  connect : exchange.client.pc = .connect → exchange.connection = .none
  line : ∀ line ∈ exchange.line, 0 ∉ line ∧ exchange.delivered <+: line ++ [0]
  noLine : exchange.line = none → exchange.delivered = []
  unread : exchange.Unread → exchange.line = none
  atSend : exchange.AtSend → ∃ line, exchange.line = some line ∧
    exchange.server.reply = line ++ [0] ∧ exchange.delivered = []
  waiting : exchange.client.pc ≠ .done → exchange.client.printed = none
  printed : ∀ print ∈ exchange.client.printed, ∃ buffer count beyond,
    print = Print.shown buffer count beyond ∧ count ≤ buffer.length

/-- What `send` is given after `fgets` has read a line without a NUL. -/
theorem reply_of_line {server : Server} {buffer line : List UInt8}
    (clean : 0 ∉ line)
    (filled : server.buf = Buffer.overwrite buffer (line ++ [0])) :
    server.reply = line ++ [0] := by
  have memory : server.buf = line ++ 0 :: buffer.drop (line ++ [0]).length := by
    rw [filled, Buffer.overwrite, List.append_assoc, List.singleton_append]
  have ends : CString.strlen server.buf = line.length := by
    rw [memory, CString.strlen_append_of_notMem clean, CString.strlen_zero_cons,
      Nat.add_zero]
  rw [Server.reply, ends, memory, List.take_length_add_append]
  rfl

/-- Only an open file is read from. -/
theorem clean_step {server next : Server} {event : SocketTcp.Event}
    (cleanLine : CleanLine (.server event))
    (stepped : server.step event = some next)
    (pc : next.pc = .fgets) : 0 ∉ Buffer.firstLine next.content := by
  cases transition_of_step stepped with
  | opened => exact cleanLine
  | acceptFailed | accepted | recvFailed | received | noLine | sendFailed
  | sent => cases pc
  | fopenFailed | line => cases pc

namespace Replying

variable {exchange next : Exchange}

theorem start {buffer : List UInt8} (sfd : Int) (buf data : List UInt8) :
    Replying (start sfd buf data buffer) where
  clean := by simp [Exchange.start, Server.start]
  connect := fun _ => rfl
  line := by simp [Exchange.start]
  noLine := by simp [Exchange.start, delivered]
  unread := by simp [Exchange.start]
  atSend := by simp [Exchange.start, AtSend]
  waiting := by simp [Exchange.start]
  printed := by simp [Exchange.start]

/-- A step of the server that leaves the reply alone. -/
theorem keep (replying : Replying exchange)
    (sameClient : next.client = exchange.client)
    (sameReply : next.reply = exchange.reply)
    (sameLine : next.line = exchange.line)
    (clean : next.server.pc = .fgets → 0 ∉ Buffer.firstLine next.server.content)
    (connected : exchange.connection = .none → next.connection = .none)
    (unread : next.Unread → exchange.Unread) (notAtSend : ¬next.AtSend) :
    Replying next where
  clean := clean
  connect := fun pc => connected (replying.connect (sameClient ▸ pc))
  line := by
    simpa only [sameLine, delivered, sameClient, sameReply] using replying.line
  noLine := by
    simpa only [sameLine, delivered, sameClient, sameReply]
      using replying.noLine
  unread := fun now => sameLine ▸ replying.unread (unread now)
  atSend := fun now => absurd now notAtSend
  waiting := sameClient ▸ replying.waiting
  printed := sameClient ▸ replying.printed

/-- A step of the server that serves another client, or none. -/
theorem elsewhere {server : Server} {event : SocketTcp.Event}
    (replying : Replying exchange)
    (cleanLine : CleanLine (.server event))
    (stepped : exchange.server.step event = some server)
    (other : exchange.connection ≠ .serving) :
    Replying { exchange with server := server } := by
  refine replying.keep rfl rfl rfl (clean_step cleanLine stepped) id ?_
    fun now => other now.1
  rintro (none | pending | ⟨serving, _⟩)
  · exact .inl none
  · exact .inr (.inl pending)
  · exact absurd serving other

/-- A step of the server that serves this client. -/
theorem serving {server : Server} {middle : Exchange} {event : SocketTcp.Event}
    (replying : Replying exchange) (cleanLine : CleanLine (.server event))
    (stepped : exchange.server.step event = some server)
    (serves : exchange.connection = .serving)
    (transferred : exchange.transfer event = some middle) :
    Replying { middle with server := server } := by
  have clean := clean_step cleanLine stepped
  have reading : exchange.server.pc ≠ .accept → exchange.server.pc ≠ .send →
      exchange.Unread :=
    fun notAccept notSend => .inr (.inr ⟨serves, notAccept, notSend⟩)
  cases transition_of_step stepped with
  | acceptFailed | accepted =>
      cases transferred
      exact replying.keep rfl rfl rfl clean (by simp [serves])
        (by simp [Unread]) (by simp [AtSend])
  | recvFailed =>
      cases transferred
      exact replying.keep rfl rfl rfl clean id (by simp [Unread, serves])
        (by simp [AtSend])
  | received pc =>
      obtain ⟨_, equal⟩ := Option.ite_none_right_eq_some.mp transferred
      cases equal
      exact replying.keep rfl rfl rfl clean id
        (fun _ => reading (by simp [pc]) (by simp [pc])) (by simp [AtSend])
  | fopenFailed pc =>
      cases transferred
      exact replying.keep rfl rfl rfl clean id
        (fun _ => reading (by simp [pc]) (by simp [pc])) (by simp [AtSend])
  | opened pc =>
      cases transferred
      exact replying.keep rfl rfl rfl clean id
        (fun _ => reading (by simp [pc]) (by simp [pc])) (by simp [AtSend])
  | noLine pc null =>
      have noLine := replying.unread (reading (by simp [pc]) (by simp [pc]))
      cases transferred
      refine replying.keep rfl rfl ?_ clean id (by simp [Unread, serves])
        (by simp [AtSend])
      exact null.trans noLine.symm
  | @line result line pc read =>
      have nothing :=
        replying.noLine
          (replying.unread (reading (by simp [pc]) (by simp [pc])))
      have absent : 0 ∉ line := by
        cases result with
        | done => exact Buffer.notMem_of_fgets read (replying.clean pc)
        | error left => cases read
      cases transferred
      exact {
        clean := clean
        connect := replying.connect
        line := by
          intro other isLine
          obtain rfl : line = other := Option.some.inj (read.symm.trans isLine)
          refine ⟨absent, ?_⟩
          change exchange.delivered <+: _
          exact nothing ▸ List.nil_prefix
        noLine := fun _ => nothing
        unread := by simp [Unread, serves]
        atSend := fun _ => ⟨line, read, reply_of_line absent rfl, nothing⟩
        waiting := replying.waiting
        printed := replying.printed }
  | sendFailed pc =>
      cases transferred
      exact replying.keep rfl rfl rfl clean id (by simp [Unread, serves])
        (by simp [AtSend])
  | @sent count pc =>
      obtain ⟨line, isLine, reply, nothing⟩ := replying.atSend ⟨serves, pc⟩
      cases transferred
      exact {
        clean := clean
        connect := replying.connect
        line := by
          intro other isOther
          obtain rfl : line = other :=
            Option.some.inj (isLine.symm.trans isOther)
          refine ⟨(replying.line line isLine).1, ?_⟩
          have sent : exchange.delivered ++ exchange.server.reply.take count <+:
              line ++ [0] := by
            rw [nothing, List.nil_append, reply]
            exact List.take_prefix _ _
          simpa only [delivered, List.append_assoc] using sent
        noLine := fun noLine => by
          rw [show exchange.line = none from noLine] at isLine
          cases isLine
        unread := by simp [Unread, serves]
        atSend := by simp [AtSend]
        waiting := replying.waiting
        printed := replying.printed }

/-- A step of the server keeps the reply to be the line. -/
theorem serverStep {event : SocketTcp.Event} (replying : Replying exchange)
    (cleanLine : CleanLine (.server event))
    (stepped : exchange.serverStep event = some next) :
    Replying next := by
  obtain ⟨server, serverStepped, mapped⟩ := Option.bind_eq_some_iff.mp stepped
  obtain ⟨middle, transferred, rfl⟩ := Option.map_eq_some_iff.mp mapped
  by_cases serves : exchange.connection = .serving
  · rw [if_pos serves] at transferred
    exact replying.serving cleanLine serverStepped serves transferred
  · rw [if_neg serves] at transferred
    cases transferred
    exact replying.elsewhere cleanLine serverStepped serves

theorem accepts {fd : Int} (replying : Replying exchange)
    (accepted : exchange.accepts fd = some next) : Replying next := by
  obtain ⟨pending, mapped⟩ := Option.ite_none_right_eq_some.mp accepted
  obtain ⟨server, stepped, rfl⟩ := Option.map_eq_some_iff.mp mapped
  cases transition_of_step stepped with
  | accepted pc =>
      exact replying.keep rfl rfl rfl (by simp) (by simp [pending])
        (fun _ => .inr (.inl pending))
        (by simp [AtSend])

/-- A step of the client that sends nothing through the connection but takes
what it prints from there. -/
theorem client (replying : Replying exchange)
    (sameServer : next.server = exchange.server)
    (sameConnection : next.connection = exchange.connection)
    (sameLine : next.line = exchange.line)
    (sameDelivered : next.delivered = exchange.delivered)
    (pc : next.client.pc ≠ .connect)
    (waiting : next.client.pc ≠ .done → next.client.printed = none)
    (printed : ∀ print ∈ next.client.printed, ∃ buffer count beyond,
      print = Print.shown buffer count beyond ∧
        count ≤ buffer.length) : Replying next where
  clean := sameServer ▸ replying.clean
  connect := fun atConnect => absurd atConnect pc
  line := by simpa only [sameLine, sameDelivered] using replying.line
  noLine := by simpa only [sameLine, sameDelivered] using replying.noLine
  unread := by
    simpa only [Unread, sameServer, sameConnection, sameLine]
      using replying.unread
  atSend := by
    simpa only [AtSend, sameServer, sameConnection, sameLine, sameDelivered]
      using replying.atSend
  waiting := waiting
  printed := printed

/-- What the client sends leaves the reply. -/
theorem clientSend {result : SendResult} (replying : Replying exchange)
    (pc : exchange.client.pc = .send)
    (sent : exchange.clientSend result = some next) :
    Replying next := by
  have waiting := replying.waiting (by simp [pc])
  cases result with
  | failed =>
      cases sent
      exact replying.client rfl rfl rfl rfl (by simp)
        (fun _ => waiting) replying.printed
  | sent count =>
      obtain ⟨_, equal⟩ := Option.ite_none_right_eq_some.mp sent
      cases equal
      exact replying.client rfl rfl rfl rfl (by simp)
        (fun _ => waiting) replying.printed

/-- The client prints what it receives. -/
theorem clientRecv {beyond : List UInt8} {result : RecvResult}
    (replying : Replying exchange)
    (pc : exchange.client.pc = .recv)
    (received : exchange.clientRecv beyond result = some next) :
    Replying next := by
  have waiting := replying.waiting (by simp [pc])
  cases result with
  | failed =>
      cases received
      refine replying.client rfl rfl rfl ?_ (by simp) (by simp) ?_
      · simp [delivered, waiting, Print.shown]
      · rintro print ⟨rfl⟩
        exact ⟨_, _, _, rfl, Nat.zero_le _⟩
  | data piece =>
      obtain ⟨⟨⟨rest, isPrefix⟩, _⟩, equal⟩ :=
        Option.ite_none_right_eq_some.mp received
      cases equal
      refine replying.client rfl rfl rfl ?_ (by simp) (by simp) ?_
      · simp [delivered, waiting, Print.shown, ← isPrefix]
      · rintro print ⟨rfl⟩
        refine ⟨_, _, _, rfl, ?_⟩
        rw [Buffer.overwrite, List.length_append]
        exact Nat.le_add_right _ _

/-- Whether the client connects leaves the reply. -/
theorem connects (replying : Replying exchange)
    (pc : exchange.client.pc = .connect)
    (succeeds : Bool) : Replying (exchange.connect succeeds) := by
  have none := replying.unread (.inl (replying.connect pc))
  have waiting := replying.waiting (by simp [pc])
  exact {
    clean := replying.clean
    connect := by simp [Exchange.connect]
    line := replying.line
    noLine := replying.noLine
    unread := fun _ => none
    atSend := by cases succeeds <;> simp [Exchange.connect, AtSend]
    waiting := fun _ => waiting
    printed := replying.printed }

/-- Every step keeps the reply to be the line. -/
theorem step {event : Event} (replying : Replying exchange)
    (cleanLine : CleanLine event)
    (stepped : step exchange event = some next) : Replying next := by
  unfold Exchange.step at stepped
  split at stepped
  case h_1 pc =>
    cases stepped
    exact replying.connects pc _
  case h_2 pc => exact replying.clientSend pc stepped
  case h_3 pc => exact replying.clientRecv pc stepped
  case h_4 => exact replying.accepts stepped
  case h_5 => exact replying.serverStep cleanLine stepped
  case h_6 => cases stepped

end Replying

/-- What the client has printed is the line the server has read for it, and
printing has read only bytes that were received. -/
def PrintsLine (exchange : Exchange) (print : Print) : Prop :=
  ∃ line, exchange.line = some line ∧ print.text = line ∧
    print.reach ≤ print.message.length

/-- The one `recv` of the client has returned the whole reply. -/
def InOnePiece (exchange : Exchange) (print : Print) : Prop :=
  ∃ line, exchange.line = some line ∧ print.message = line ++ [0]

/-- Of a line with its NUL, only the whole holds the NUL. -/
theorem eq_of_prefix_of_mem {line piece : List UInt8} (clean : 0 ∉ line)
    (isPrefix : piece <+: line ++ [0]) (nul : 0 ∈ piece) :
    piece = line ++ [0] := by
  rcases List.prefix_concat_iff.mp isPrefix with whole | shorter
  · exact whole
  · exact absurd (shorter.subset nul) clean

/-- Of files without a NUL in their first line the client prints the line that
the server has read, and nothing that was not received, exactly when its `recv`
returns the whole reply at once. -/
theorem printsLine_iff {sfd : Int} {buf data buffer : List UInt8}
    {events : List Event}
    {final : Exchange} {print : Print}
    (clean : ∀ event ∈ events, CleanLine event)
    (ran : step.run (start sfd buf data buffer) events = some final)
    (printed : final.client.printed = some print) :
    final.PrintsLine print ↔ final.InOnePiece print := by
  have every := (Machine.everyStep_event_iff ran).mpr clean
  have replying := Machine.run_invariant_of_everyStep Replying
    (fun _ _ _ replying cleanLine stepped => replying.step cleanLine stepped)
    (.start sfd buf data) every ran
  obtain ⟨stored, count, beyond, rfl, fits⟩ := replying.printed print printed
  have inside := Print.reach_shown_le_iff stored count beyond
  constructor
  · rintro ⟨line, isLine, _, reach⟩
    obtain ⟨absent, isPrefix⟩ := replying.line line isLine
    rw [delivered, printed] at isPrefix
    have piece := (List.prefix_append _ _).trans isPrefix
    exact ⟨line, isLine, eq_of_prefix_of_mem absent piece (inside.mp reach)⟩
  · rintro ⟨line, isLine, whole⟩
    have absent := (replying.line line isLine).1
    have nul : 0 ∈ stored.take count := by
      rw [show stored.take count = line ++ [0] from whole]
      simp
    refine ⟨line, isLine, ?_, inside.mpr nul⟩
    rw [Print.text_shown_of_mem beyond nul, show stored.take count =
      line ++ [0] from whole,
      CString.text_append_of_notMem absent]
    simp [CString.text]

/-- One client that asks for a file of one line and receives the given piece of
the reply. -/
def oneClient (piece : List UInt8) : List Event :=
  [.connect true, .clientSend (.sent 2), .accepts 4,
    .server (.recv [] (.data [104, 105])),
    .server (.fopen (.opened 5 [72, 105, 10])), .server (.fgets .done),
    .server (.send (.sent 4)), .clientRecv [] (.data piece)]

/-- The exchange in which the client sends `hi` and its buffer holds two other
bytes at first. -/
def oneClientStart : Exchange :=
  start 3 (List.replicate bufSize 0) [104, 105, 0]
    (7 :: 7 :: List.replicate 498 0)

/-- A client that asks for one line. -/
theorem printsLine_iff_oneClient :
    ∃ final print,
      step.run oneClientStart (oneClient [72, 105, 10, 0]) = some final ∧
      final.client.printed = some print ∧ final.PrintsLine print := by
  have reached : (step.run oneClientStart (oneClient [72, 105, 10, 0])).map
      (fun exchange => (exchange.client.printed.map Print.message,
        exchange.line)) =
        some (some [72, 105, 10, 0], some [72, 105, 10]) := by decide
  obtain ⟨final, ran, values⟩ := Option.map_eq_some_iff.mp reached
  obtain ⟨received, line⟩ := Prod.mk.inj values
  obtain ⟨print, printed, message⟩ := Option.map_eq_some_iff.mp received
  have clean : ∀ event ∈ oneClient [72, 105, 10, 0],
    CleanLine event := by decide
  exact ⟨final, print, ran, printed, (printsLine_iff clean ran printed).mpr
    ⟨_, line, message⟩⟩

/-- A client that receives the first byte of the line prints it and then what
its buffer held, up to a NUL. -/
theorem not_printsLine_firstByte :
    ∃ final print, step.run oneClientStart (oneClient [72]) = some final ∧
      final.client.printed = some print ∧ final.line = some [72, 105, 10] ∧
      print.text = [72, 7] ∧ print.reach = 3 ∧ ¬final.PrintsLine print := by
  have reached : (step.run oneClientStart (oneClient [72])).map
      (fun exchange => (exchange.client.printed, exchange.line)) =
        some (some ⟨[72], [72, 7], 3⟩, some [72, 105, 10]) := by decide
  obtain ⟨final, ran, values⟩ := Option.map_eq_some_iff.mp reached
  obtain ⟨printed, line⟩ := Prod.mk.inj values
  refine ⟨final, _, ran, printed, line, rfl, rfl, ?_⟩
  rintro ⟨_, _, _, reach⟩
  exact absurd reach (by decide)

end Exchange
end SocketTcp
end LinuxCPractice

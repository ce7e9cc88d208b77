import LinuxCPractice.SocketTcp.Connections

/-!
# Where the server and its clients stop

Every run comes to a state in which no call can return. A client is left in
`recv` then only if the server has read no line for it, or if somebody who has
sent nothing holds the server in `recv`.
-/

namespace LinuxCPractice
namespace SocketTcp
namespace Network

variable {count : Nat} {network next : Network} {event : Event}

/-! ## Who has sent something -/

/-- A client has sent some of its data. -/
def Sent (past : List Event) (number : Nat) : Prop :=
  ∃ sent, 0 < sent ∧ .clientSend number (.sent sent) ∈ past

theorem sent_concat {past : List Event} {number : Nat} :
    Sent (past ++ [event]) number ↔
      Sent past number ∨ ∃ sent, 0 < sent ∧
        event = .clientSend number (.sent sent) := by
  simp only [Sent, List.mem_append, List.mem_singleton, and_or_left, exists_or,
    eq_comm]

/-- The server has not called `recv` for the client. -/
def Unheard (network : Network) (number : Nat) : Prop :=
  number ∈ network.queue ∨ network.serving = some number ∧
    network.server.pc = .recv

/-- What a client has sent waits for the server. -/
structure Pending (past : List Event) (network : Network) : Prop where
  late : ∀ number, Sent past number →
    (network.clients number).pc = .recv ∨ (network.clients number).pc = .done
  unread : ∀ number, Sent past number → network.Unheard number →
    ∃ link, network.links number = some link ∧ link.request ≠ []

/-- Who has sent something is waiting, served or answered. -/
theorem Pending.moves {past : List Event} (pending : Pending past network)
    (connected : Connected network) (moves : Moves count network event next) :
    Pending (past ++ [event]) next := by
  obtain ⟨late, unread⟩ := pending
  have outside (number : Nat) (serves : network.serving = some number) :=
    (connected.served number serves).2.1
  cases moves with
  | connects | refused | sendFails | receives | recvFails | dies | accepts =>
      constructor <;> grind [sent_concat, Unheard]
  | @sends number sent _ _ _ _ taken =>
      have filled :
          0 < sent → (network.clients number).data.take sent ≠ [] := by
        intro positive empty
        have none := congrArg List.length empty
        rw [List.length_take, List.length_nil] at none
        have short : CString.strlen (network.clients number).data ≤ _ :=
          (List.takeWhile_sublist _).length_le
        omega
      constructor <;> grind [sent_concat, Unheard]
  | takes | reads | leaves | hangsUp | replies =>
      constructor <;> grind [sent_concat, Unheard]
  | exits => constructor <;> grind [sent_concat, Unheard, exit]

/-- Only the clients that there are take part. -/
def Idle (count : Nat) (network : Network) : Prop :=
  ∀ number, count ≤ number → (network.clients number).pc = .connect

/-- The other clients do not start. -/
theorem Idle.moves (idle : Idle count network)
    (moves : Moves count network event next) :
    Idle count next := by
  intro number beyond
  have before := idle number beyond
  cases moves with
  | connects active | refused active | sends active | sendFails active
  | receives active
  | recvFails active | dies active => grind
  | accepts | takes | reads | leaves | hangsUp | replies | exits => exact before

/-- What is known of the state that a run has led to. -/
structure Sound (count : Nat) (past : List Event)
    (network : Network) : Prop where
  connected : Connected network
  pending : Pending past network
  idle : Idle count network

theorem Sound.lt {past : List Event} (sound : Sound count past network)
    {number : Nat}
    (isOpen : network.Open number) : number < count :=
  Nat.lt_of_not_le fun beyond =>
    sound.connected.not_open (sound.idle number beyond) isOpen

/-! ## No call can return -/

/-- No process can make a call. -/
def Settled (count : Nat) (network : Network) : Prop :=
  ∀ event, event.isCall = true → step count network event = none

/-- The server waits for a message of the client, which has sent nothing and
waits for a reply. -/
def HoldsUp (past : List Event) (network : Network) (number : Nat) : Prop :=
  network.serving = some number ∧ network.server.pc = .recv ∧
    (network.clients number).pc = .recv ∧ ¬Sent past number

/-- A client is done, or in `recv` on an open connection with no reply in it. -/
theorem Settled.client (settled : Settled count network) {number : Nat}
    (active : number < count) :
    (network.clients number).pc = .done ∨ (network.clients number).pc = .recv ∧
      ∃ link, network.links number = some link ∧ link.closed = false ∧
        link.reply = [] := by
  cases pc : (network.clients number).pc with
  | connect =>
      have none := settled (.connect number false) rfl
      simp [step, active, pc, connect] at none
  | send =>
      have none := settled (.clientSend number .failed) rfl
      simp [step, active, pc, clientSend] at none
  | recv =>
      refine .inr ⟨rfl, ?_⟩
      have never := settled (.clientRecv number [] .failed) rfl
      simp only [step, active, pc, clientRecv, and_self, if_true] at never
      split at never
      case isTrue => cases never
      case isFalse stays =>
        obtain ⟨link, found, isOpen⟩ :
          ∃ link, network.links number = some link ∧
            ¬link.closed = true := by simpa using stays
        refine ⟨link, found, by simpa using isOpen, ?_⟩
        cases reply : link.reply with
        | nil => rfl
        | cons byte rest =>
            have none := settled (.clientRecv number [] (.data [byte])) rfl
            simp [step, active, pc, clientRecv, found, reply, bufSize] at none
  | done => exact .inl rfl

/-- A server stuck in `accept` has an empty queue. -/
theorem Settled.accept (settled : Settled count network)
    (connected : Connected network)
    (pc : network.server.pc = .accept) : network.queue = [] := by
  cases queue : network.queue with
  | nil => rfl
  | cons number rest =>
      obtain ⟨fd, fresh⟩ := Use.exists_unheld (uses network.server.log)
      have none := settled (.accept fd) rfl
      simp [step, Network.accept, queue, Server.step, pc, Server.accept,
        connected.listening.sfd] at none
      exact absurd fresh none

/-- The server is at `accept` or `recv` or has exited. -/
theorem Settled.pc (settled : Settled count network)
    (connected : Connected network) :
    network.server.pc = .accept ∨ network.server.pc = .recv ∨
      network.server.pc = .exited := by
  cases serving : network.serving with
  | none => exact (connected.idle serving).imp_right .inr
  | some number =>
      obtain ⟨⟨link, found, _⟩, _⟩ := connected.served number serving
      have stuck (call : SocketTcp.Event) : network.serverStep call = none :=
        settled (.server call) rfl
      cases pc : network.server.pc with
      | accept => exact .inl rfl
      | recv => exact .inr (.inl rfl)
      | exited => exact .inr (.inr rfl)
      | fopen =>
          have none := stuck (.fopen .failed)
          simp [serverStep, serving, found, Server.step, pc, Server.fopen,
            transfer] at none
      | fgets =>
          have none := stuck (.fgets (.error (List.replicate bufSize 0)))
          simp [serverStep, serving, found, Server.step, pc, Server.fgets,
            Server.line?, Server.leftBy, transfer] at none
      | send =>
          have none := stuck (.send .failed)
          simp [serverStep, serving, found, Server.step, pc, Server.send,
            transfer] at none

/-- A server stuck in `recv` is held up by a client that has sent nothing. -/
theorem Settled.recv {past : List Event} (settled : Settled count network)
    (sound : Sound count past network) (pc : network.server.pc = .recv) :
    ∃ number, network.HoldsUp past number := by
  have connected := sound.connected
  cases serving : network.serving with
  | none =>
      rcases connected.idle serving with accept | exited
      · rw [pc] at accept
        cases accept
      · rw [pc] at exited
        cases exited
  | some number =>
      have isOpen := (connected.served number serving).1
      obtain ⟨link, found, _⟩ := id isOpen
      have stuck (call : SocketTcp.Event) : network.serverStep call = none :=
        settled (.server call) rfl
      have listening := (connected.listening.client (by simp [pc])).1
      have waits : (network.clients number).pc = .recv := by
        rcases settled.client (sound.lt isOpen) with done | ⟨waits, _⟩
        · have none := stuck (.recv [] .failed)
          simp [serverStep, serving, found, Server.step, pc, Server.recv,
            transfer, done] at none
        · exact waits
      refine ⟨number, serving, pc, waits, fun sent => ?_⟩
      obtain ⟨same, isFound, filled⟩ :=
        sound.pending.unread number sent (.inr ⟨serving, pc⟩)
      obtain rfl : link = same := Option.some.inj (found.symm.trans isFound)
      obtain ⟨byte, rest, request⟩ := List.exists_cons_of_ne_nil filled
      have none := stuck (.recv [] (.data [byte]))
      have short : 1 ≤ bufSize := by decide
      simp [serverStep, serving, found, Server.step, pc, Server.recv, transfer,
        listening, request, short] at none

/-- How the server and the clients are left. -/
structure Outcome (count : Nat) (past : List Event)
    (network : Network) : Prop where
  server : network.server.pc = .exited ∨
    (network.server.pc = .accept ∧ network.queue = []) ∨
    ∃ number, network.HoldsUp past number
  clients : ∀ number < count, (network.clients number).pc = .done ∨
    (network.clients number).pc = .recv ∧
      (number ∈ network.unanswered ∨ network.HoldsUp past number ∨
        number ∈ network.queue ∧ ∃ first, network.HoldsUp past first)

/-- Where the network settles it has one of the outcomes. -/
theorem Settled.outcome {past : List Event} (settled : Settled count network)
    (sound : Sound count past network) : Outcome count past network := by
  have connected := sound.connected
  constructor
  · rcases settled.pc connected with accept | recv | exited
    · exact .inr (.inl ⟨accept, settled.accept connected accept⟩)
    · exact .inr (.inr (settled.recv sound recv))
    · exact .inl exited
  · intro number active
    rcases settled.client active with done | ⟨waits, link, found, isOpen, empty⟩
    · exact .inl done
    · refine .inr ⟨waits, ?_⟩
      rcases connected.answered number link found isOpen with queued | serving
        | reply | none | done
      · rcases settled.pc connected with accept | recv | exited
        · rw [settled.accept connected accept] at queued
          cases queued
        · exact .inr (.inr ⟨queued, settled.recv sound recv⟩)
        · exact absurd ⟨link, found, isOpen⟩ (connected.exited exited number)
      · obtain ⟨_, _, notAccept, notExited⟩ := connected.served number serving
        have recv :=
          ((settled.pc connected).resolve_left notAccept).resolve_right
            notExited
        obtain ⟨first, holdsUp⟩ := settled.recv sound recv
        obtain rfl : number = first :=
          Option.some.inj (serving.symm.trans holdsUp.1)
        exact .inr (.inl holdsUp)
      · exact absurd empty reply
      · exact .inl none
      · rw [waits] at done
        cases done

/-! ## Whole runs -/

section Runs

variable {sfd : Int} {buf : List UInt8} {data buffers : Nat → List UInt8}
  {events : List Event}
  {final : Network}

theorem sound_start : Sound count [] (start sfd buf data buffers) where
  connected := by
    constructor
    case listening => exact Listening.start sfd buf
    all_goals simp [start, Server.start]
  pending := by constructor <;> simp [Sent]
  idle _ _ := rfl

/-- In every run the network is sound. -/
theorem sound_of_run
    (ran : (step count).run (start sfd buf data buffers) events = some final) :
    Sound count events final := by
  refine Machine.run_invariant_past (Sound count) sound_start ?_ ran
  intro past network event next _ sound stepped
  have moves := moves_of_step stepped
  exact ⟨sound.connected.moves moves, sound.pending.moves sound.connected moves,
    sound.idle.moves moves⟩

theorem remaining_start :
    (start sfd buf data buffers).remaining count = 8 * count := by
  simp [remaining, start, Server.start, Pc.remaining, ClientPc.remaining,
    Nat.mul_comm]

/-- Whatever fails, each client costs eight steps at most, those of the server
for it included. Where no call can return, the server has exited, waits in
`accept` with an empty queue or is held up in `recv` by a client that has sent
nothing. Each client is done, or it waits for ever: because the server has read
no line for it and left its connection open, or because it holds up the server
itself or waits in the queue behind the one that does. From everywhere the calls
alone can lead to such an end. -/
theorem run_settles
    (ran : (step count).run (start sfd buf data buffers) events = some final) :
    events.length ≤ 8 * count ∧
      (Settled count final → Outcome count events final) ∧
      ∃ more last, (step count).run final more = some last ∧
        Settled count last ∧
        ∀ event ∈ more, event.isCall = true := by
  refine ⟨?_, fun settled => settled.outcome (sound_of_run ran), ?_⟩
  · have anything : ∀ event ∈ events, (fun _ : Event => True) event :=
      fun _ _ => trivial
    have covered := Machine.length_run_le
      (fun _ _ _ _ stepped => (moves_of_step stepped).remaining_lt) ran anything
    rw [remaining_start] at covered
    omega
  · exact Machine.exists_run_to_rest (fun event : Event => event.isCall = true)
      (remaining count)
      (fun _ _ _ _ stepped => (moves_of_step stepped).remaining_lt) final

/-- The first client sends nothing, and the second waits behind it. -/
def silentClient : List Event :=
  [.connect 0 true, .clientSend 0 .failed, .connect 1 true,
    .clientSend 1 (.sent 1), .accept 4]

/-- The first of two clients stays silent. -/
theorem run_settles_silentClient :
    ∃ final, (step 2).run (start 3 [] (fun _ => [65, 0]) fun _ =>
      []) silentClient = some final ∧
      Settled 2 final ∧
      (final.HoldsUp silentClient 0 ∨ 0 ∈ final.unanswered) := by
  have reached : ((step 2).run (start 3 [] (fun _ => [65, 0]) fun _ =>
    []) silentClient).map
      (fun network =>
        ((network.server.pc, (network.clients 0).pc, (network.clients 1).pc),
          (network.links 0, network.links 1), network.queue, network.serving)) =
      some ((.recv, .recv, .recv),
        (some ⟨[], [], false⟩, some ⟨[65], [], false⟩), [1],
        some 0) := by decide
  obtain ⟨final, ran, state⟩ := Option.map_eq_some_iff.mp reached
  simp only [Prod.mk.injEq] at state
  obtain ⟨⟨server, first, second⟩, ⟨firstLink, secondLink⟩, queue, serving⟩ :=
    state
  have settled : Settled 2 final := by
    intro event isCall
    cases event with
    | connect number | clientSend number =>
        by_cases active : number < 2
        · rcases (by omega : number = 0 ∨ number = 1) with rfl | rfl <;>
            simp [step, first, second]
        · simp [step, active]
    | clientRecv number beyond result =>
        by_cases active : number < 2
        · rcases (by omega : number = 0 ∨ number = 1) with rfl | rfl
          all_goals cases result <;> simp_all [step, clientRecv]
        · simp [step, active]
    | killed => cases isCall
    | accept => simp [step, Network.accept, queue, Server.step, server]
    | server call =>
        cases call with
        | recv beyond result =>
            cases result <;>
              simp [step, serverStep, serving, firstLink, first, transfer]
        | accept | fopen | fgets | send =>
            simp [step, serverStep, serving, Server.step, server]
  have outcome := (run_settles ran).2.1 settled
  refine ⟨final, ran, settled, ?_⟩
  rcases outcome.clients 0 (by decide) with done
    | ⟨_, none | holdsUp | ⟨waits, _⟩⟩
  · rw [first] at done
    cases done
  · exact .inr none
  · exact .inl holdsUp
  · rw [queue] at waits
    simp at waits

end Runs

end Network
end SocketTcp
end LinuxCPractice

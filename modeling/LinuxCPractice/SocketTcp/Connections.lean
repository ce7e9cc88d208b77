import LinuxCPractice.SocketTcp.Network

/-!
# Who is connected to the server

What one step of the network does, how much is left to do behind it, and what is
known of the connections: those of the queue, the one being served and those
that the server has left open.
-/

namespace LinuxCPractice
namespace SocketTcp

/-! ## Steps that are left -/

/-- The steps a client has left, with the five that the server makes for it. -/
def ClientPc.remaining : ClientPc → Nat
  | .connect => 8
  | .send => 2
  | .recv => 1
  | .done => 0

/-- The steps of the server until it is back at `accept`. -/
def Pc.remaining : Pc → Nat
  | .accept | .exited => 0
  | .recv => 4
  | .fopen => 3
  | .fgets => 2
  | .send => 1

namespace Network

/-- A bound for the calls that the server and `count` clients have left. -/
def remaining (count : Nat) (network : Network) : Nat :=
  (∑ number ∈ Finset.range count, (network.clients number).pc.remaining) +
    5 * network.queue.length + network.server.pc.remaining

variable {count : Nat} {network next : Network} {event : Event}

/-! ## What one step can do -/

/-- The steps of the network, those of the server by what they do to the client
served. -/
inductive Moves (count : Nat) (network : Network) : Event → Network → Prop
  | connects {number} (active : number < count)
      (pc : (network.clients number).pc = .connect)
      (alive : network.server.pc ≠ .exited) :
      Moves count network (.connect number true)
        { (network.setClient number
          ((network.clients number).goto .send)).setLink number
            ⟨[], [], false⟩ with queue := network.queue ++ [number] }
  | refused {number} (active : number < count)
      (pc : (network.clients number).pc = .connect) :
      Moves count network (.connect number false)
        (network.setClient number ((network.clients number).goto .send))
  | sends {number sent link} (active : number < count)
      (pc : (network.clients number).pc = .send)
      (found : network.links number = some link)
      (taken : sent ≤ CString.strlen (network.clients number).data) :
      Moves count network (.clientSend number (.sent sent))
        ((network.setClient number
          ((network.clients number).goto .recv)).setLink number
          { link with request := (network.clients number).data.take sent })
  | sendFails {number} (active : number < count)
      (pc : (network.clients number).pc = .send) :
      Moves count network (.clientSend number .failed)
        (network.setClient number ((network.clients number).goto .recv))
  | receives {number beyond piece link client} (active : number < count)
      (pc : (network.clients number).pc = .recv)
      (found : network.links number = some link)
      (done : client.pc = .done) :
      Moves count network (.clientRecv number beyond (.data piece))
        ((network.setClient number client).setLink number
          { link with reply := link.reply.drop piece.length })
  | recvFails {number beyond client} (active : number < count)
      (pc : (network.clients number).pc = .recv) (done : client.pc = .done) :
      Moves count network (.clientRecv number beyond .failed)
        (network.setClient number client)
  | dies {number} (active : number < count)
      (pc : (network.clients number).pc ≠ .done) :
      Moves count network (.killed number)
        (network.setClient number ((network.clients number).goto .done))
  | accepts {fd number queue server} (waits : network.queue = number :: queue)
      (stepped : network.server.step (.accept (.ok fd)) = some server)
      (pc : network.server.pc = .accept) (recv : server.pc = .recv) :
      Moves count network (.accept fd)
        { network with server := server, queue := queue, serving := some number }
  | takes {number link beyond message server}
      (serves : network.serving = some number)
      (found : network.links number = some link)
      (stepped : network.server.step (.recv beyond (.data message)) =
        some server)
      (pc : network.server.pc = .recv) (fopen : server.pc = .fopen) :
      Moves count network (.server (.recv beyond (.data message)))
        { network.setLink number
          { link with request := link.request.drop message.length } with
          server := server }
  | reads {call server} (serves : network.serving ≠ none)
      (stepped : network.server.step call = some server)
      (pcs : network.server.pc = .fopen ∧ server.pc = .fgets ∨
        network.server.pc = .fgets ∧ server.pc = .send) :
      Moves count network (.server call) { network with server := server }
  | leaves {number result server} (serves : network.serving = some number)
      (stepped : network.server.step (.fgets result) = some server)
      (pc : network.server.pc = .fgets) (accept : server.pc = .accept) :
      Moves count network (.server (.fgets result))
        { network with
          server := server
          serving := none
          unanswered := network.unanswered ++ [number] }
  | hangsUp {number link call server} (serves : network.serving = some number)
      (found : network.links number = some link)
      (stepped : network.server.step call = some server)
      (notAccept : call ≠ .accept .failed)
      (pc : network.server.pc = .recv ∨ network.server.pc = .send)
      (accept : server.pc = .accept) :
      Moves count network (.server call) { network.hangUp number link with
          server := server }
  | replies {number link sent server} (serves : network.serving = some number)
      (found : network.links number = some link)
      (stepped : network.server.step (.send (.sent sent)) = some server)
      (pc : network.server.pc = .send) (accept : server.pc = .accept)
      (filled : network.server.reply.take sent ≠ []) :
      Moves count network (.server (.send (.sent sent)))
        { network.setLink number
            { link with
                reply := link.reply ++ network.server.reply.take sent } with
          server := server, serving := none }
  | exits {server} (serves : network.serving ≠ none)
      (stepped : network.server.step (.fopen .failed) = some server)
      (pc : network.server.pc = .fopen) (exited : server.pc = .exited) :
      Moves count network (.server (.fopen .failed)) { network.exit with server := server }

theorem moves_of_serverStep {call : SocketTcp.Event}
    (stepped : network.serverStep call = some next) :
    Moves count network (.server call) next := by
  obtain ⟨number, serves, stepped⟩ := Option.bind_eq_some_iff.mp stepped
  obtain ⟨link, found, stepped⟩ := Option.bind_eq_some_iff.mp stepped
  obtain ⟨server, called, stepped⟩ := Option.bind_eq_some_iff.mp stepped
  obtain ⟨after, transferred, rfl⟩ := Option.map_eq_some_iff.mp stepped
  have someone : network.serving ≠ none := by simp [serves]
  cases transition_of_step called with
  | acceptFailed | accepted => cases transferred
  | recvFailed pc =>
      obtain ⟨_, equal⟩ := Option.ite_none_right_eq_some.mp transferred
      cases equal
      exact .hangsUp serves found called (by simp) (.inl pc) rfl
  | received pc =>
      obtain ⟨_, equal⟩ := Option.ite_none_right_eq_some.mp transferred
      cases equal
      exact .takes serves found called pc rfl
  | fopenFailed pc =>
      cases transferred
      exact .exits someone called pc rfl
  | opened pc =>
      cases transferred
      exact .reads someone called (.inl ⟨pc, rfl⟩)
  | noLine pc null =>
      simp only [transfer, null, Option.some.injEq] at transferred
      cases transferred
      exact .leaves serves called pc rfl
  | line pc read =>
      simp only [transfer, read, Option.some.injEq] at transferred
      cases transferred
      exact .reads someone called (.inr ⟨pc, rfl⟩)
  | sendFailed pc =>
      cases transferred
      exact .hangsUp serves found called (by simp) (.inr pc) rfl
  | sent pc _ taken =>
      obtain ⟨positive, equal⟩ := Option.ite_none_right_eq_some.mp transferred
      cases equal
      refine .replies serves found called pc rfl ?_
      intro empty
      have none := congrArg List.length empty
      rw [List.length_take, List.length_nil] at none
      omega

theorem moves_of_step (stepped : step count network event = some next) :
    Moves count network event next := by
  cases event with
  | connect number succeeds =>
      obtain ⟨⟨active, pc⟩, stepped⟩ := Option.ite_none_right_eq_some.mp stepped
      cases succeeds with
      | false =>
          cases stepped
          exact .refused active pc
      | true =>
          obtain ⟨alive, equal⟩ := Option.ite_none_right_eq_some.mp stepped
          cases equal
          exact .connects active pc alive
  | clientSend number result =>
      obtain ⟨⟨active, pc⟩, stepped⟩ := Option.ite_none_right_eq_some.mp stepped
      cases result with
      | failed =>
          cases stepped
          exact .sendFails active pc
      | sent sent =>
          obtain ⟨link, found, stepped⟩ := Option.bind_eq_some_iff.mp stepped
          obtain ⟨⟨taken, _⟩, equal⟩ := Option.ite_none_right_eq_some.mp stepped
          cases equal
          exact .sends active pc found taken
  | clientRecv number beyond result =>
      obtain ⟨⟨active, pc⟩, stepped⟩ := Option.ite_none_right_eq_some.mp stepped
      cases result with
      | failed =>
          obtain ⟨_, equal⟩ := Option.ite_none_right_eq_some.mp stepped
          cases equal
          exact .recvFails active pc rfl
      | data piece =>
          obtain ⟨link, found, stepped⟩ := Option.bind_eq_some_iff.mp stepped
          obtain ⟨_, equal⟩ := Option.ite_none_right_eq_some.mp stepped
          cases equal
          exact .receives active pc found rfl
  | killed number =>
      obtain ⟨⟨active, pc⟩, equal⟩ := Option.ite_none_right_eq_some.mp stepped
      cases equal
      exact .dies active pc
  | accept fd =>
      simp only [step, accept] at stepped
      split at stepped
      · cases stepped
      · rename_i number queue waits
        obtain ⟨server, called, equal⟩ := Option.map_eq_some_iff.mp stepped
        cases equal
        cases transition_of_step called with
        | accepted pc => exact .accepts waits called pc rfl
  | server call => exact moves_of_serverStep stepped

/-! ## The length of a run -/

/-- What a client has done is taken off the sum. -/
theorem sum_update_le {number : Nat} (active : number < count)
    (clients : Nat → Client)
    (client : Client) (made : Nat)
    (closer : client.pc.remaining + made ≤ (clients number).pc.remaining) :
    (∑ other ∈ Finset.range count,
        (Function.update clients number client other).pc.remaining) + made ≤
      ∑ other ∈ Finset.range count, (clients other).pc.remaining := by
  have present : number ∈ Finset.range count := Finset.mem_range.mpr active
  have others : ∑ other ∈ (Finset.range count).erase number,
      (Function.update clients number client other).pc.remaining =
        ∑ other ∈ (Finset.range count).erase number,
          (clients other).pc.remaining := by
    refine Finset.sum_congr rfl fun other isOther => ?_
    rw [Function.update_of_ne (Finset.ne_of_mem_erase isOther)]
  rw [← Finset.add_sum_erase _ _ present, others, Function.update_self,
    ← Finset.add_sum_erase _
      (fun other => (clients other).pc.remaining) present]
  omega

theorem remaining_pos {pc : ClientPc} (notDone : pc ≠ .done) :
    1 ≤ pc.remaining := by
  cases pc <;> first | decide | exact absurd rfl notDone

/-- Every step brings its client or the server closer to the end. -/
theorem Moves.remaining_lt (moves : Moves count network event next) :
    next.remaining count < network.remaining count := by
  unfold remaining
  cases moves with
  | @connects number active pc =>
      have sum := sum_update_le active network.clients
        ((network.clients number).goto .send) 6
        (by simp [pc, ClientPc.remaining])
      simp only [setClient, setLink, List.length_append, List.length_singleton]
      omega
  | @refused number active pc =>
      have sum := sum_update_le active network.clients
        ((network.clients number).goto .send) 1
        (by simp [pc, ClientPc.remaining])
      simp only [setClient]
      omega
  | @sends number _ _ active pc | @sendFails number active pc =>
      have sum := sum_update_le active network.clients
        ((network.clients number).goto .recv) 1
        (by simp [pc, ClientPc.remaining])
      simp only [setClient, setLink]
      omega
  | @receives number _ _ _ client active pc _ done
  | @recvFails number _ client active pc done =>
      have sum := sum_update_le active network.clients client 1
        (by simp [pc, done, ClientPc.remaining])
      simp only [setClient, setLink]
      omega
  | @dies number active pc =>
      have sum := sum_update_le active network.clients ((network.clients number).goto .done) 1
        (by simpa [ClientPc.remaining] using remaining_pos pc)
      simp only [setClient]
      omega
  | accepts waits _ pc recv =>
      simp only [waits, pc, recv, List.length_cons, Pc.remaining]
      omega
  | takes _ _ _ pc later | leaves _ _ pc later | replies _ _ _ pc later =>
      simp only [setLink, pc, later, Pc.remaining]
      omega
  | reads _ _ pcs =>
      rcases pcs with ⟨pc, later⟩ | ⟨pc, later⟩
      all_goals
        simp only [pc, later, Pc.remaining]
        omega
  | hangsUp _ _ _ _ pc later =>
      rcases pc with pc | pc
      all_goals
        simp only [hangUp, setLink, pc, later, Pc.remaining]
        omega
  | exits _ _ pc later =>
      simp only [exit, pc, later, Pc.remaining, List.length_nil]
      omega

/-! ## Who is where -/

/-- There is a connection that the server has not closed. -/
def Open (network : Network) (number : Nat) : Prop :=
  ∃ link, network.links number = some link ∧ link.closed = false

/-- Who is in the queue or served has an open connection. Any other open
connection has a reply in it, or there was no line for its client, or the client
is done with it. -/
structure Connected (network : Network) : Prop where
  listening : Listening network.server
  early : ∀ number, (network.clients number).pc = .connect →
    network.links number = none
  queued : ∀ number ∈ network.queue, network.Open number
  nodup : network.queue.Nodup
  served : ∀ number, network.serving = some number → network.Open number ∧
    number ∉ network.queue ∧ network.server.pc ≠ .accept ∧
    network.server.pc ≠ .exited
  idle : network.serving = none →
    network.server.pc = .accept ∨ network.server.pc = .exited
  answered : ∀ number link, network.links number = some link →
    link.closed = false →
    number ∈ network.queue ∨ network.serving = some number ∨ link.reply ≠ [] ∨
      number ∈ network.unanswered ∨ (network.clients number).pc = .done
  exited : network.server.pc = .exited → ∀ number, ¬network.Open number

/-- The server goes on listening while it can accept. -/
theorem Moves.listening (moves : Moves count network event next)
    (listening : Listening network.server) : Listening next.server := by
  cases moves with
  | connects | refused | sends | sendFails | receives | recvFails | dies =>
      exact listening
  | accepts _ stepped | takes _ _ stepped | leaves _ stepped | replies _ _ stepped
  | exits _ stepped => exact listening.step (by simp) stepped
  | hangsUp _ _ stepped notAccept => exact listening.step notAccept stepped
  | reads _ stepped pcs =>
      refine listening.step ?_ stepped
      rintro rfl
      cases transition_of_step stepped with
      | acceptFailed pc =>
          rcases pcs with ⟨reads, _⟩ | ⟨reads, _⟩
          all_goals
            rw [pc] at reads
            cases reads

/-- A connection that is set is open as it says. -/
theorem open_setLink {number other : Nat} {link : Link} :
    (network.setLink number link).Open other ↔
      if other = number then link.closed = false else network.Open other := by
  unfold Open setLink
  by_cases same : other = number
  · simp [same]
  · simp [same]

/-- Nobody is connected before `connect`. -/
theorem Connected.not_open (connected : Connected network) {number : Nat}
    (pc : (network.clients number).pc = .connect) : ¬network.Open number := by
  rintro ⟨link, found, _⟩
  rw [connected.early number pc] at found
  cases found

/-- A client connects and waits in the queue. -/
theorem Connected.connects (connected : Connected network) {number : Nat}
    (pc : (network.clients number).pc = .connect)
    (alive : network.server.pc ≠ .exited) :
    Connected
      { (network.setClient number ((network.clients number).goto .send)).setLink
        number
        ⟨[], [], false⟩ with queue := network.queue ++ [number] } := by
  have absent := connected.not_open pc
  have opens (other : Nat) (isOpen : network.Open other) :
      (network.setLink number ⟨[], [], false⟩).Open other :=
    open_setLink.mpr (by split <;> first | rfl | exact isOpen)
  constructor
  · exact connected.listening
  · intro other early
    by_cases same : other = number
    · simp [setClient, setLink, same] at early
    · simp only [setClient, setLink, Function.update_of_ne same] at early ⊢
      exact connected.early other early
  · intro other waits
    rcases List.mem_append.mp waits with earlier | now
    · exact opens other (connected.queued other earlier)
    · exact open_setLink.mpr (by rw [if_pos (List.mem_singleton.mp now)])
  · have new : number ∉ network.queue := fun waits =>
      absent (connected.queued number waits)
    exact List.nodup_append.mpr ⟨connected.nodup, List.nodup_singleton number,
      by grind⟩
  · intro other serves
    obtain ⟨isOpen, outside, places⟩ := connected.served other serves
    have different : other ≠ number := by
      rintro rfl
      exact absent isOpen
    exact ⟨opens other isOpen, by simp [outside, different], places⟩
  · exact connected.idle
  · intro other link found isOpen
    by_cases same : other = number
    · exact .inl (List.mem_append_right _ (List.mem_singleton.mpr same))
    · simp only [setClient, setLink, Function.update_of_ne same] at found ⊢
      rcases connected.answered other link found isOpen with waits | others
      · exact .inl (List.mem_append_left _ waits)
      · exact .inr others
  · exact fun exited => absurd exited alive

/-- A client that goes on and is not done before. -/
theorem Connected.setClient (connected : Connected network) {number : Nat}
    {client : Client}
    (notDone : (network.clients number).pc ≠ .done)
    (later : client.pc ≠ .connect) :
    Connected (network.setClient number client) where
  listening := connected.listening
  early other early := by
    by_cases same : other = number
    · simp only [Network.setClient, same, Function.update_self] at early
      exact absurd early later
    · simp only [Network.setClient, Function.update_of_ne same] at early
      exact connected.early other early
  queued := connected.queued
  nodup := connected.nodup
  served := connected.served
  idle := connected.idle
  answered other link found isOpen := by
    rcases connected.answered other link found isOpen with waits | serves
      | reply | none | done
    · exact .inl waits
    · exact .inr (.inl serves)
    · exact .inr (.inr (.inl reply))
    · exact .inr (.inr (.inr (.inl none)))
    · have different : other ≠ number := by
        rintro rfl
        exact notDone done
      simp only [Network.setClient, Function.update_of_ne different]
      exact .inr (.inr (.inr (.inr done)))
  exited := connected.exited

/-- Bytes that are put into an open connection or taken out of it, those of a
reply by a client that is done. -/
theorem Connected.setLink (connected : Connected network) {number : Nat}
    {old link : Link}
    (found : network.links number = some old)
    (closed : link.closed = old.closed)
    (reply : link.reply = old.reply ∨ (network.clients number).pc = .done) :
    Connected (network.setLink number link) := by
  have same (other : Nat) : (network.setLink number link).Open other ↔
      network.Open other := by
    rw [open_setLink, closed]
    split
    case isTrue same => simp [Open, same, found]
    case isFalse => rfl
  obtain ⟨listening, early, queued, nodup, served, idle, answered, exited⟩ :=
    connected
  constructor
  · exact listening
  · intro other pc
    by_cases here : other = number
    · rw [← here, early other pc] at found
      cases found
    · simpa [Network.setLink, here] using early other pc
  · exact fun other waits => (same other).mpr (queued other waits)
  · exact nodup
  · exact fun other serves => ⟨(same other).mpr (served other serves).1,
      (served other serves).2⟩
  · exact idle
  · intro other another isFound isOpen
    by_cases here : other = number
    · simp only [Network.setLink, here, Function.update_self, Option.some.injEq]
        at isFound
      subst here isFound
      rcases reply with kept | done
      · exact kept ▸ answered other old found (closed ▸ isOpen)
      · exact .inr (.inr (.inr (.inr done)))
    · simp only [Network.setLink, Function.update_of_ne here] at isFound
      exact answered other another isFound isOpen
  · exact fun ended other => mt (same other).mp (exited ended other)

/-- The server goes on with the client it serves. -/
theorem Connected.goesOn (connected : Connected network) {server : Server}
    (listening : Listening server) (serves : network.serving ≠ none)
    (pc : server.pc ≠ .accept ∧ server.pc ≠ .exited) :
    Connected { network with server := server } where
  listening := listening
  early := connected.early
  queued := connected.queued
  nodup := connected.nodup
  served other serving :=
    have ⟨isOpen, outside, _⟩ := connected.served other serving
    ⟨isOpen, outside, pc⟩
  idle none := absurd none serves
  answered := connected.answered
  exited exited := absurd exited pc.2

/-- The server goes back to `accept`. It has answered or closed the connection
of its client, or notes that there was no line. -/
theorem Connected.returns (connected : Connected network) {number : Nat}
    (link : Link)
    {server : Server} {unanswered : List Nat} (listening : Listening server)
    (serves : network.serving = some number) (pc : server.pc = .accept)
    (more : ∀ other ∈ network.unanswered, other ∈ unanswered)
    (settled : link.closed = true ∨ link.reply ≠ [] ∨ number ∈ unanswered) :
    Connected { network.setLink number link with
      server := server, serving := none, unanswered := unanswered } := by
  obtain ⟨isOpen, outside, _⟩ := connected.served number serves
  constructor
  · exact listening
  · intro other early
    have different : other ≠ number := by
      rintro rfl
      exact connected.not_open early isOpen
    simpa [Network.setLink, different] using connected.early other early
  · intro other waits
    have different : other ≠ number := fun same => outside (same ▸ waits)
    exact open_setLink.mpr
      (by simpa [different] using connected.queued other waits)
  · exact connected.nodup
  · exact fun other none => by cases none
  · exact fun _ => .inl pc
  · intro other another found stillOpen
    by_cases same : other = number
    · simp only [Network.setLink, same, Function.update_self, Option.some.injEq]
        at found
      subst same found
      rcases settled with closed | reply | none
      · rw [closed] at stillOpen
        cases stillOpen
      · exact .inr (.inr (.inl reply))
      · exact .inr (.inr (.inr (.inl none)))
    · simp only [Network.setLink, Function.update_of_ne same] at found
      rcases connected.answered other another found stillOpen with waits
        | serving | others
      · exact .inl waits
      · rw [serves] at serving
        exact absurd (Option.some.inj serving).symm same
      · exact .inr (.inr (others.imp_right (Or.imp_left (more other))))
  · exact fun exited => by rw [pc] at exited; cases exited

/-- Behind `exit` every connection is closed. -/
theorem Connected.ended (connected : Connected network) {server : Server}
    (listening : Listening server) (pc : server.pc = .exited) :
    Connected { network.exit with server := server } := by
  have closed (other : Nat) : ¬network.exit.Open other := by
    rintro ⟨link, found, isOpen⟩
    obtain ⟨old, _, rfl⟩ := Option.map_eq_some_iff.mp found
    cases isOpen
  constructor
  · exact listening
  · intro other early
    have none := connected.early other early
    simp [Network.exit, none]
  · exact fun other none => by cases none
  · exact List.nodup_nil
  · exact fun other none => by cases none
  · exact fun _ => .inr pc
  · exact fun other link found isOpen =>
      absurd ⟨link, found, isOpen⟩ (closed other)
  · exact fun _ => closed

/-- Every step keeps what holds the clients and the server together. -/
theorem Connected.moves (connected : Connected network)
    (moves : Moves count network event next) :
    Connected next := by
  have listening := moves.listening connected.listening
  cases moves with
  | connects active pc alive => exact connected.connects pc alive
  | refused _ pc | sendFails _ pc =>
      exact connected.setClient (by simp [pc]) (by simp)
  | recvFails _ pc done =>
      exact connected.setClient (by simp [pc]) (by simp [done])
  | dies _ pc => exact connected.setClient pc (by simp)
  | sends _ pc found =>
      exact (connected.setClient (by simp [pc]) (by simp)).setLink found rfl
        (.inl rfl)
  | receives _ pc found done =>
      refine (connected.setClient (by simp [pc]) (by simp [done])).setLink found rfl (.inr ?_)
      simp [Network.setClient, done]
  | @takes number link _ message _ serves found _ _ fopen =>
      have kept : Connected (network.setLink number
          { link with request := link.request.drop message.length }) :=
        connected.setLink found rfl (.inl rfl)
      exact kept.goesOn listening (by simp [Network.setLink, serves]) (by simp [fopen])
  | reads serves _ pcs =>
      refine connected.goesOn listening serves ?_
      rcases pcs with ⟨_, pc⟩ | ⟨_, pc⟩ <;> simp [pc]
  | accepts =>
      obtain ⟨_, early, queued, nodup, served, idle, answered, exited⟩ := connected
      constructor <;> grind [Open]
  | @leaves number _ _ serves _ _ accept =>
      obtain ⟨⟨link, found, _⟩, _⟩ := connected.served number serves
      have same : network.setLink number link = network := by
        rw [Network.setLink, ← found, Function.update_eq_self]
      have returned := connected.returns link listening serves accept
        (fun _ => List.mem_append_left [number]) (.inr (.inr (by simp)))
      rwa [same] at returned
  | hangsUp serves _ _ _ _ accept =>
      exact connected.returns _ listening serves accept (fun _ => id) (.inl rfl)
  | replies serves _ _ _ accept filled =>
      exact connected.returns _ listening serves accept (fun _ => id)
        (.inr (.inl (by simp [filled])))
  | exits _ _ _ exited =>
      exact connected.ended listening exited

end Network
end SocketTcp
end LinuxCPractice

import LinuxCPractice.AddressSelection

/-!
# The address a client turns to

The loop in which `work_as_client` of `socket_tcp.c` and of `socket_udp.c` looks
for the address of the server. It is the beginning of the loop of the servers:
the first IPv6 candidate is taken without any further test. In `socket_udp.c`
both sides ask `getaddrinfo` the same, so that they go over the same candidates.
-/

namespace LinuxCPractice
namespace AddressSelection

/-- The candidate in `rp` behind the loop of a client, or the status with which
it exits. -/
inductive PeerEnding
  | chosen (rp : AddrInfo)
  | exited (status : Nat)
  deriving DecidableEq

/-- The loop of a client, which makes no socket for a candidate, and the test of
`rp` behind it. -/
def peerLoop : List Trial → PeerEnding
  | [] => .exited 2
  | trial :: trials =>
      if trial.passes = false then .exited 1
      else if trial.rp.aiFamily = .inet then peerLoop trials
      else .chosen trial.rp

end AddressSelection

/-- The loop of `work_as_client` of `socket_tcp.c`. -/
def SocketTcp.selectPeer := AddressSelection.peerLoop

/-- The loop of `work_as_client` of `socket_udp.c`. -/
def SocketUdp.selectPeer := AddressSelection.peerLoop

namespace AddressSelection

/-- The server's socket is bound to the address of the candidate. -/
def Meets (after : Sockets) (fd : Int) (peer : AddrInfo) : Prop :=
  ∃ socket, after.read fd = some socket ∧ socket.address = some peer.aiAddr

/-- The server's calls about the candidate succeed. -/
def Trial.Serves (trial : Trial) : Prop := trial.Binds ∧ 0 ≤ trial.setsockopt

/-- A candidate that passes and is not for IPv4 is for IPv6. -/
theorem inet6_of_passes {trial : Trial} (passes : ¬trial.passes = false)
    (family : ¬trial.rp.aiFamily = .inet) : trial.rp.aiFamily = .inet6 := by
  cases isFamily : trial.rp.aiFamily with
  | inet => exact absurd isFamily family
  | inet6 => rfl
  | other => simp [Trial.passes, isFamily] at passes

section Server

variable {sockets after : Sockets} {sfd fd : Int} {trial : Trial}
  {trials : List Trial}
  {rp : AddrInfo}

/-- A socket that a round leaves open is bound to no other address. -/
theorem round_broke_address
    (ran : round sockets sfd trial = some (after, fd, .broke)) :
    ∃ socket, after.read fd = some socket ∧
      (socket.address = none ∨ socket.address = some trial.rp.aiAddr) := by
  unfold round at ran
  split at ran
  · cases ran
  split at ran
  · cases ran
  split at ran
  · cases ran
  split at ran
  · dsimp only at ran
    split at ran
    · cases ran
      exact ⟨_, Heap.read_store_self _ _ _, .inl rfl⟩
    split at ran
    · obtain ⟨bound, written, same⟩ := Option.map_eq_some_iff.mp ran
      obtain ⟨_, rfl⟩ := Heap.write_eq_some_iff.mp written
      cases same
      exact ⟨_, Heap.read_store_self _ _ _, .inr rfl⟩
    · obtain ⟨_, _, same⟩ := Option.map_eq_some_iff.mp ran
      cases same
  · cases ran

/-- The socket left is bound to the address left, or to none. -/
theorem address_of_left
    (ran : loop sockets sfd trials = some (after, .left (some rp) fd)) :
    ∃ socket, after.read fd = some socket ∧
      (socket.address = none ∨ socket.address = some rp.aiAddr) := by
  induction trials generalizing sockets sfd with
  | nil => cases ran
  | cons trial trials inductionHypothesis =>
      obtain ⟨⟨middle, next, verdict⟩, ranRound, rest⟩ :=
        Option.bind_eq_some_iff.mp ran
      cases verdict with
      | next => exact inductionHypothesis rest
      | broke =>
          cases rest
          exact round_broke_address ranRound
      | exited => cases rest

/-- A round that breaks with a socket option set has bound the socket. -/
theorem serves_iff_of_broke
    (ran : round sockets sfd trial = some (after, fd, .broke)) :
    trial.Serves ↔ 0 ≤ trial.setsockopt := by
  obtain ⟨passes, decides, _⟩ := round_broke ran
  refine ⟨fun serves => serves.2, fun optioned => ⟨?_, optioned⟩⟩
  have notFailed : ¬trial.setsockopt < 0 := by omega
  simp [Trial.decides, passes, notFailed] at decides
  obtain ⟨⟨family, made⟩, binds⟩ := decides
  exact ⟨inet6_of_passes (by simp [passes]) family, made, binds⟩

end Server

/-- A client takes the first IPv6 candidate. -/
theorem find?_of_peerLoop {candidates : List Trial} {peer : AddrInfo}
    (asks : peerLoop candidates = .chosen peer) :
    (candidates.map Trial.rp).find? (fun rp => rp.aiFamily = .inet6) =
      some peer := by
  induction candidates with
  | nil => cases asks
  | cons candidate candidates inductionHypothesis =>
      rw [peerLoop] at asks
      split at asks
      · cases asks
      rename_i passes
      rw [List.map_cons]
      split at asks
      case isTrue family =>
        rw [List.find?_cons_of_neg (by simp [family])]
        exact inductionHypothesis asks
      case isFalse family =>
        cases asks
        exact List.find?_cons_of_pos (by simp [inet6_of_passes passes family])

/-- The client's address is the server's exactly when the calls of the server
about that candidate succeed. By induction on the candidates: up to the first
IPv6 candidate the two loops go on together. -/
theorem meets_iff {trials candidates : List Trial} {sockets after : Sockets}
    {sfd fd : Int}
    {rp peer : AddrInfo}
    (distinct : (trials.map fun trial => trial.rp.aiAddr).Nodup)
    (same : candidates.map Trial.rp = trials.map Trial.rp)
    (serves : loop sockets sfd trials = some (after, .left (some rp) fd))
    (asks : peerLoop candidates = .chosen peer) :
    Meets after fd peer ↔ ∃ trial ∈ trials, trial.rp = peer ∧ trial.Serves := by
  induction trials generalizing candidates sockets sfd with
  | nil => cases serves
  | cons trial trials inductionHypothesis =>
      obtain ⟨candidate, candidates, rfl, sameHead, sameTail⟩ :=
        List.map_eq_cons_iff.mp same
      obtain ⟨notLater, distinctTail⟩ := List.nodup_cons.mp distinct
      obtain ⟨⟨middle, next, verdict⟩, ranRound, rest⟩ :=
        Option.bind_eq_some_iff.mp serves
      rw [peerLoop] at asks
      split at asks
      · cases asks
      split at asks
      case isTrue family =>
        have inet : trial.rp.aiFamily = .inet := sameHead ▸ family
        have notHead : ¬trial.Serves := fun head => by simp [head.1.1] at inet
        cases verdict with
        | next =>
            rw [inductionHypothesis distinctTail sameTail rest asks]
            simp [notHead]
        | broke =>
            obtain ⟨passes, decides, _⟩ := round_broke ranRound
            simp [Trial.decides, passes, inet] at decides
        | exited => cases rest
      case isFalse family =>
        cases asks
        -- another candidate has another address
        have elsewhere : ∀ later ∈ trials,
            later.rp.aiAddr ≠ candidate.rp.aiAddr := by
          intro later isLater equal
          exact notLater
            (List.mem_map.mpr ⟨later, isLater, by rw [equal, sameHead]⟩)
        have onlyHead : (∃ other ∈ trial :: trials, other.rp = candidate.rp ∧
            other.Serves) ↔
            trial.Serves := by
          constructor
          · rintro ⟨other, member, equal, succeeds⟩
            rcases List.mem_cons.mp member with rfl | isLater
            · exact succeeds
            · exact absurd (congrArg AddrInfo.aiAddr equal)
                (elsewhere other isLater)
          · exact fun succeeds => ⟨trial, List.mem_cons_self, sameHead.symm,
              succeeds⟩
        rw [onlyHead]
        cases verdict with
        | next =>
            obtain ⟨_, _, fails⟩ := round_next ranRound
            obtain ⟨later, isLater, rfl⟩ := exists_trial_of_left rest
            obtain ⟨socket, isOpen, address⟩ := address_of_left rest
            refine ⟨?_, fun succeeds => absurd succeeds.1 fails⟩
            rintro ⟨other, isOther, bound⟩
            cases isOpen.symm.trans isOther
            rcases address with none | later_
            · cases none.symm.trans bound
            · exact absurd (Option.some.inj (later_.symm.trans bound))
                (elsewhere later isLater)
        | broke =>
            cases rest
            obtain ⟨_, _, ⟨socket, isOpen, bound⟩, _⟩ := round_broke ranRound
            rw [serves_iff_of_broke ranRound, ← bound, Meets, isOpen, sameHead]
            simp
        | exited => cases rest

/-- The client and the server of `socket_udp.c`, which get the same candidates:
a server that has left its loop with a candidate has its socket bound to the
address to which the client sends exactly when its calls about the client's
candidate, the first one for IPv6, have succeeded. -/
theorem selectPeer_meets_iff {trials candidates : List Trial}
    {sockets after : Sockets}
    {sfd fd : Int} {rp peer : AddrInfo}
    (distinct : (trials.map fun trial => trial.rp.aiAddr).Nodup)
    (same : candidates.map Trial.rp = trials.map Trial.rp)
    (serves : SocketUdp.selectAddress sockets sfd trials =
      some (after, .left (some rp) fd))
    (asks : SocketUdp.selectPeer candidates = .chosen peer) :
    (trials.map Trial.rp).find? (fun rp => rp.aiFamily = .inet6) = some peer ∧
      (Meets after fd peer ↔ ∃ trial ∈ trials, trial.rp = peer ∧
        trial.Serves) :=
  ⟨same ▸ find?_of_peerLoop asks, meets_iff distinct same serves asks⟩

/-- The server cannot bind the first IPv6 address and takes the second, to which
nobody sends. -/
theorem selectPeer_meets_iff_secondBinds :
    ∃ after, SocketUdp.selectAddress .empty 0 secondBinds =
        some (after, .left (some ⟨.inet6, 1, 6, [1]⟩) 3) ∧
      SocketUdp.selectPeer secondBinds = .chosen ⟨.inet6, 1, 6, [0]⟩ ∧
      ¬Meets after 3 ⟨.inet6, 1, 6, [0]⟩ := by
  have reached : (SocketUdp.selectAddress .empty 0 secondBinds).map Prod.snd =
      some (.left (some ⟨.inet6, 1, 6, [1]⟩) 3) := by decide
  obtain ⟨⟨after, ending⟩, ran, rfl⟩ := Option.map_eq_some_iff.mp reached
  refine ⟨after, ran, by decide, ?_⟩
  rw [(selectPeer_meets_iff (by decide) rfl ran (by decide)).2]
  rintro ⟨trial, member, same, ⟨_, _, binds⟩, _⟩
  simp only [secondBinds, List.mem_cons, List.not_mem_nil, or_false] at member
  rcases member with rfl | rfl | rfl
  · cases same
  · cases binds
  · cases same

end AddressSelection
end LinuxCPractice

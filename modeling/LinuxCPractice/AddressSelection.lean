import LinuxCPractice.Heap

/-!
# The address of a server

The loop in which `work_as_server` of `socket_tcp.c` and of `socket_udp.c` looks
for an address that it can bind a socket to. It is the same loop in both
programs. A candidate comes with the outcomes of the calls about it, so that a
list of trials stands for any list of candidates and any course of the calls.
-/

namespace LinuxCPractice
namespace AddressSelection

/-- The family of an address, `ai_family`. -/
inductive Family
  | inet
  | inet6
  | other
  deriving DecidableEq

/-- An entry of the list from `getaddrinfo`. -/
structure AddrInfo where
  aiFamily : Family
  aiSocktype : Int
  aiProtocol : Int
  aiAddr : List UInt8
  deriving DecidableEq

/-- A candidate with the results of `inet_ntop`, `socket`, `setsockopt` and
`bind`, in case they are called. -/
structure Trial where
  rp : AddrInfo
  inetNtop : Bool
  socket : Int
  setsockopt : Int
  bind : Int
  deriving DecidableEq

/-- A socket with the arguments it was made with, and the address it is bound
to. -/
structure Socket where
  family : Family
  socktype : Int
  protocol : Int
  address : Option (List UInt8)
  deriving DecidableEq

/-- The open sockets of the process by their descriptors. -/
abbrev Sockets := Heap Int Socket

/-- How a round of the loop ends. -/
inductive Verdict
  | next
  | broke
  | exited
  deriving DecidableEq

/-- The variables `rp` and `sfd` behind the loop, or the end of the process. -/
inductive Ending
  | left (rp : Option AddrInfo) (sfd : Int)
  | exited
  deriving DecidableEq

/-! ## The loop -/

/-- The `switch` on the family lets the candidate pass. -/
def Trial.passes (trial : Trial) : Bool :=
  match trial.rp.aiFamily with
  | .inet | .inet6 => trial.inetNtop
  | .other => false

/-- The body of the loop: the sockets, `sfd` and how the round ends. The kernel
gives a new socket a descriptor that is not in use. -/
def round (sockets : Sockets) (sfd : Int) (trial : Trial) :
    Option (Sockets × Int × Verdict) :=
  if trial.passes = false then some (sockets, sfd, .exited)
  else if trial.rp.aiFamily = .inet then some (sockets, sfd, .next)
  else if trial.socket = -1 then some (sockets, -1, .next)
  else if 0 ≤ trial.socket ∧ sockets.read trial.socket = none then
    let made : Socket :=
      ⟨trial.rp.aiFamily, trial.rp.aiSocktype, trial.rp.aiProtocol, none⟩
    let opened := sockets.store trial.socket made
    if trial.setsockopt < 0 then some (opened, trial.socket, .broke)
    else if trial.bind = 0 then
      (opened.write trial.socket
        { made with address := some trial.rp.aiAddr }).map fun bound =>
        (bound, trial.socket, .broke)
    else (opened.free trial.socket).map fun closed =>
      (closed, trial.socket, .next)
  else none

/-- The rounds over the addresses until one of them leaves the loop. -/
def loop (sockets : Sockets) (sfd : Int) :
    List Trial → Option (Sockets × Ending)
  | [] => some (sockets, .left none sfd)
  | trial :: trials =>
      (round sockets sfd trial).bind fun (sockets, sfd, verdict) =>
        match verdict with
        | .next => loop sockets sfd trials
        | .broke => some (sockets, .left (some trial.rp) sfd)
        | .exited => some (sockets, .exited)

end AddressSelection

/-- The loop of `socket_tcp.c`. Its `sfd` is not initialised. -/
def SocketTcp.selectAddress := AddressSelection.loop

/-- The loop of `socket_udp.c`. Its `sfd` is not initialised. -/
def SocketUdp.selectAddress := AddressSelection.loop

namespace AddressSelection

/-! ## What the loop is for -/

/-- The calls about the candidate give a bound socket, if they are made. -/
def Trial.Binds (trial : Trial) : Prop :=
  trial.rp.aiFamily = .inet6 ∧ trial.socket ≠ -1 ∧ trial.bind = 0

/-- With a candidate left in `rp`, the loop has a socket bound to its address
and no other one more than before. With none left, no IPv6 candidate can be
bound, and no socket is open that was not before. -/
def Selects (trials : List Trial) (before after : Sockets) : Ending → Prop
  | .left (some rp) sfd =>
      (∃ trial ∈ trials, trial.rp = rp) ∧
        (∃ socket, after.read sfd = some socket ∧
          socket.address = some rp.aiAddr) ∧
        ∀ fd, fd ≠ sfd → after.read fd = before.read fd
  | .left none _ => (∀ trial ∈ trials, ¬trial.Binds) ∧ after = before
  | .exited => True

/-- The candidate ends the loop. -/
def Trial.decides (trial : Trial) : Bool :=
  !trial.passes ||
    (trial.rp.aiFamily ≠ .inet && trial.socket ≠
      -1 && (trial.setsockopt < 0 || trial.bind = 0))

/-! ## One round -/

section Round

variable {sockets after : Sockets} {sfd next : Int} {trial : Trial}

/-- A round that goes on has closed what it has opened. -/
theorem round_next (ran : round sockets sfd trial = some (after, next, .next)) :
    after = sockets ∧ trial.decides = false ∧ ¬trial.Binds := by
  unfold round at ran
  split at ran
  · cases ran
  rename_i passes
  split at ran
  · rename_i family
    cases ran
    exact ⟨rfl, by simpa [Trial.decides, family] using passes,
      by simp [Trial.Binds, family]⟩
  split at ran
  · rename_i failed
    cases ran
    exact ⟨rfl, by simpa [Trial.decides, failed] using passes,
      by simp [Trial.Binds, failed]⟩
  split at ran
  · rename_i fresh
    dsimp only at ran
    split at ran
    · cases ran
    rename_i optioned
    split at ran
    · obtain ⟨bound, _, same⟩ := Option.map_eq_some_iff.mp ran
      cases same
    rename_i unbound
    obtain ⟨closed, freed, same⟩ := Option.map_eq_some_iff.mp ran
    obtain ⟨_, rfl⟩ := Heap.free_eq_some_iff.mp freed
    cases same
    refine ⟨Heap.remove_store_of_dead _ fresh.2, ?_,
      by simp [Trial.Binds, unbound]⟩
    simpa [Trial.decides, unbound, optioned] using passes
  · cases ran

/-- Only a socket that does not pass ends the process. -/
theorem round_exited
    (ran : round sockets sfd trial = some (after, next, .exited)) :
    trial.passes = false := by
  unfold round at ran
  split at ran
  · assumption
  split at ran
  · cases ran
  split at ran
  · cases ran
  split at ran
  · dsimp only at ran
    split at ran
    · cases ran
    split at ran
    · obtain ⟨_, _, same⟩ := Option.map_eq_some_iff.mp ran
      cases same
    · obtain ⟨_, _, same⟩ := Option.map_eq_some_iff.mp ran
      cases same
  · cases ran

/-- A round that breaks leaves one socket more. It is bound unless `setsockopt`
has failed. -/
theorem round_broke
    (ran : round sockets sfd trial = some (after, next, .broke)) :
    trial.passes = true ∧ trial.decides = true ∧
      (∃ socket, after.read next = some socket ∧
        (socket.address = some trial.rp.aiAddr ↔ 0 ≤ trial.setsockopt)) ∧
      ∀ fd, fd ≠ next → after.read fd = sockets.read fd := by
  unfold round at ran
  split at ran
  · cases ran
  rename_i passes
  split at ran
  · cases ran
  rename_i family
  split at ran
  · cases ran
  rename_i made
  split at ran
  · dsimp only at ran
    split at ran
    · rename_i failed
      cases ran
      refine ⟨by simpa using passes,
        by simp [Trial.decides, family, made, failed], ?_, ?_⟩
      · exact ⟨_, Heap.read_store_self _ _ _, by simpa using failed⟩
      · intro fd other
        exact Heap.read_store_of_ne other _
    rename_i optioned
    split at ran
    · rename_i binds
      obtain ⟨bound, written, same⟩ := Option.map_eq_some_iff.mp ran
      obtain ⟨_, rfl⟩ := Heap.write_eq_some_iff.mp written
      cases same
      refine ⟨by simpa using passes,
        by simp [Trial.decides, family, made, binds], ?_, ?_⟩
      · exact ⟨_, Heap.read_store_self _ _ _, by simpa using optioned⟩
      · intro fd other
        rw [Heap.read_store_of_ne other, Heap.read_store_of_ne other]
    · obtain ⟨_, _, same⟩ := Option.map_eq_some_iff.mp ran
      cases same
  · cases ran

end Round

/-! ## The loop as a whole -/

section Loop

variable {sockets after : Sockets} {sfd next : Int} {trials : List Trial}

/-- The address at which the loop is left is one of those tried. -/
theorem exists_trial_of_left {rp : AddrInfo}
    (ran : loop sockets sfd trials = some (after, .left (some rp) next)) :
    ∃ trial ∈ trials, trial.rp = rp := by
  induction trials generalizing sockets sfd with
  | nil => cases ran
  | cons trial trials inductionHypothesis =>
      obtain ⟨⟨_, _, verdict⟩, _, rest⟩ := Option.bind_eq_some_iff.mp ran
      cases verdict with
      | next =>
          obtain ⟨found, isLater, same⟩ := inductionHypothesis rest
          exact ⟨found, List.mem_cons_of_mem trial isLater, same⟩
      | broke =>
          cases rest
          exact ⟨trial, List.mem_cons_self, rfl⟩
      | exited => cases rest

/-- The loop selects as it should exactly if `setsockopt` does not fail for the
address that decides, unless that one does not pass anyway. -/
theorem selects_loop_iff {ending : Ending}
    (ran : loop sockets sfd trials = some (after, ending)) :
    Selects trials sockets after ending ↔
      ∀ trial ∈ trials.find? Trial.decides, trial.passes = true →
        0 ≤ trial.setsockopt := by
  induction trials generalizing sockets sfd with
  | nil =>
      cases ran
      simp [Selects]
  | cons trial trials inductionHypothesis =>
      have whole := ran
      obtain ⟨⟨middle, next, verdict⟩, ranRound, rest⟩ :=
        Option.bind_eq_some_iff.mp ran
      cases verdict with
      | next =>
          obtain ⟨rfl, goesOn, fails⟩ := round_next ranRound
          rw [List.find?_cons_of_neg (by simpa using goesOn),
            ← inductionHypothesis rest]
          cases ending with
          | exited => rfl
          | left rp sfd =>
              cases rp with
              | none => simp [Selects, fails]
              | some rp =>
                  simp only [Selects, exists_trial_of_left whole,
                    exists_trial_of_left rest]
      | broke =>
          cases rest
          obtain ⟨passes, decides, ⟨socket, isOpen, bound⟩, others⟩ :=
            round_broke ranRound
          rw [List.find?_cons_of_pos decides]
          simp only [Selects, exists_trial_of_left whole, isOpen,
            Option.some.injEq,
            exists_eq_left', bound, Option.mem_some_iff, forall_eq', passes,
            true_and, forall_const, and_iff_left_iff_imp]
          exact fun _ => others
      | exited =>
          cases rest
          have refused := round_exited ranRound
          rw [List.find?_cons_of_pos (by simp [Trial.decides, refused])]
          simp [Selects, refused]

end Loop

/-- In both servers the loop finds a bound socket, or goes through all
candidates in vain, exactly when the candidate that ends it does not end it by a
failing `setsockopt`. -/
theorem selectAddress_selects_iff
    {selectAddress : Sockets → Int → List Trial → Option (Sockets × Ending)}
    (isServer : selectAddress ∈ [SocketTcp.selectAddress,
      SocketUdp.selectAddress])
    {sockets after : Sockets} {sfd : Int} {trials : List Trial}
    {ending : Ending}
    (ran : selectAddress sockets sfd trials = some (after, ending)) :
    Selects trials sockets after ending ↔
      ∀ trial ∈ trials.find? Trial.decides, trial.passes = true →
        0 ≤ trial.setsockopt := by
  have same : selectAddress = loop := by
    rcases List.mem_pair.mp isServer with rfl | rfl <;> rfl
  rw [same] at ran
  exact selects_loop_iff ran

/-- An IPv4 candidate is passed over, one IPv6 address is taken, and the next
one is bound. -/
def secondBinds : List Trial :=
  [⟨⟨.inet, 1, 6, [127, 0, 0, 1]⟩, true, 3, 0, 0⟩,
    ⟨⟨.inet6, 1, 6, [0]⟩, true, 3, 0, -1⟩, ⟨⟨.inet6, 1, 6, [1]⟩, true, 3, 0, 0⟩]

/-- The first address cannot be bound, the second one can. -/
theorem selectAddress_selects_iff_secondBinds :
    ∃ after, SocketTcp.selectAddress .empty 0 secondBinds =
        some (after, .left (some ⟨.inet6, 1, 6, [1]⟩) 3) ∧
      Selects secondBinds .empty after
        (.left (some ⟨.inet6, 1, 6, [1]⟩) 3) := by
  have reached : (SocketTcp.selectAddress .empty 0 secondBinds).map Prod.snd =
      some (.left (some ⟨.inet6, 1, 6, [1]⟩) 3) := by decide
  obtain ⟨⟨after, ending⟩, ran, rfl⟩ := Option.map_eq_some_iff.mp reached
  exact ⟨after, ran, (selectAddress_selects_iff (by simp) ran).mpr (by decide)⟩

/-- When `setsockopt` fails, the loop is left with a socket that is not
bound. -/
theorem not_selects_of_setsockopt :
    (¬∀ (sockets after : Sockets) (sfd : Int) (trials : List Trial)
      (ending : Ending),
        SocketTcp.selectAddress sockets sfd trials = some (after, ending) →
        Selects trials sockets after ending) ∧
      ¬∀ (sockets after : Sockets) (sfd : Int) (trials : List Trial)
        (ending : Ending),
        SocketUdp.selectAddress sockets sfd trials = some (after, ending) →
        Selects trials sockets after ending := by
  constructor
  all_goals
    intro claimed
    obtain ⟨_, ⟨socket, isOpen, bound⟩, _⟩ :=
      claimed .empty _ 0 [⟨⟨.inet6, 1, 6, [1]⟩, true, 3, -1, 0⟩] _ rfl
    cases isOpen
    cases bound

end AddressSelection
end LinuxCPractice

import LinuxCPractice.PollSocket.Invariant
import Mathlib.Order.Basic

/-!
# One pass of the loop

A pass starts with a successful `poll` and goes on to the next one. While it
lasts, the scan sees for every polled entry the `revents` of this very call and,
up to the current position, the descriptor the call was given. Entries appended
by the accept loop lie behind `current_size` and are not scanned.
-/

namespace LinuxCPractice
namespace PollSocket

open Server

/-- Whether an event is a call of `poll`. -/
def Event.isPoll : Event → Bool
  | .poll _ => true
  | _ => false

/-- The calls of a pass from a head of the loop: a `poll` that returns `revents`
and no further `poll`. -/
structure Pass (server : Server) (revents : List (BitVec 16))
    (rest : List Event)
    (next : Server) : Prop where
  single : ∀ event ∈ rest, event.isPoll = false
  ran : step.run server (.poll (.ready revents) :: rest) = some next

/-- Connections taken up, in order. -/
def takenUp (log : List Entry) : List Int :=
  log.filterMap fun
    | .readable fd => some fd
    | _ => none

@[simp] theorem takenUp_append (first second : List Entry) :
    takenUp (first ++ second) = takenUp first ++ takenUp second :=
  List.filterMap_append

/-- Closing takes nothing up. -/
theorem takenUp_map_close (fds : List Int) : takenUp (fds.map .close) = [] := by
  simp [takenUp]

/-- The descriptors a call of `poll` was given, each with the result for it. -/
def polled (server : Server) (revents : List (BitVec 16)) :
    List (Int × BitVec 16) :=
  (descriptors server.fds server.nfds).zip revents

/-- The connections among polled entries that are reported exactly as
readable. -/
def served (listenSd : Int) (entries : List (Int × BitVec 16)) : List Int :=
  (entries.filter fun entry => entry.2 = pollIn ∧
    entry.1 ≠ listenSd).map Prod.fst

@[simp] theorem served_nil (listenSd : Int) : served listenSd [] = [] := rfl

/-- One entry more that is served if it is readable. -/
theorem served_take_succ (listenSd : Int) (entries : List (Int × BitVec 16))
    {index : Nat}
    (inside : index < entries.length) :
    served listenSd (entries.take (index + 1)) =
      served listenSd (entries.take index) ++
        if entries[index].2 = pollIn ∧ entries[index].1 ≠ listenSd then
          [entries[index].1]
        else [] := by
  have split :
      entries.take (index + 1) = entries.take index ++ [entries[index]] := by
    rw [List.take_add_one, List.getElem?_eq_getElem inside]
    rfl
  rw [split, served, List.filter_append, List.map_append]
  congr 1
  by_cases ready : entries[index].2 = pollIn ∧ entries[index].1 ≠ listenSd
  · simp [ready]
  · rw [if_neg ready, List.filter_cons_of_neg (by simpa using ready),
      List.filter_nil, List.map_nil]

/-! ## The reads of a pass -/

/-- How the reads of a pass relate to the connections taken up in it, while the
process holds the descriptors `held`. The connection `current` has been taken up
but need not have been read yet. -/
structure Reads (given : List Int) (passLog : List Entry) (held : List Int)
    (current : Option Int) : Prop where
  onlyTakenUp : ∀ fd result, .recv fd result ∈ passLog → fd ∈ takenUp passLog
  eachRead : ∀ fd ∈ takenUp passLog, (∃ result, .recv fd result ∈ passLog) ∨
    current = some fd
  ended : ∀ fd result, .recv fd result ∈ passLog →
    result = .endOfStream ∨ result = .failed → fd ∉ held
  accepted : ∀ fd, .accept (.ok fd) ∈ passLog → fd ∉ given

namespace Reads

variable {given held : List Int} {passLog : List Entry} {current : Option Int}

theorem nil : Reads given [] held none where
  onlyTakenUp := by simp
  eachRead := by simp [takenUp]
  ended := by simp
  accepted := by simp

/-- Reads without a current connection are reads with any. -/
theorem weaken (reads : Reads given passLog held none) :
    Reads given passLog held current where
  onlyTakenUp := reads.onlyTakenUp
  eachRead := fun fd taken =>
    .inl ((reads.eachRead fd taken).resolve_right nofun)
  ended := reads.ended
  accepted := reads.accepted

/-- Calls other than `accept` and `recv` that leave no new descriptor open. -/
theorem other (reads : Reads given passLog held current) {entry : Entry}
    {rest : List Int}
    (notRead : ∀ fd result, entry ≠ .recv fd result)
    (notTaken : takenUp [entry] = [])
    (notAccepted : ∀ fd, entry ≠ .accept (.ok fd)) (subset : rest ⊆ held) :
    Reads given (passLog ++ [entry]) rest current := by
  have earlier : ∀ fd result, .recv fd result ∈ passLog ++ [entry] →
      .recv fd result ∈ passLog := by
    intro fd result present
    rcases List.mem_append.mp present with earlier | last
    · exact earlier
    · exact absurd (List.mem_singleton.mp last).symm (notRead fd result)
  refine ⟨?_, ?_, ?_, ?_⟩
  · intro fd result present
    rw [takenUp_append, notTaken, List.append_nil]
    exact reads.onlyTakenUp fd result (earlier fd result present)
  · intro fd taken
    rw [takenUp_append, notTaken, List.append_nil] at taken
    rcases reads.eachRead fd taken with ⟨result, present⟩ | now
    · exact .inl ⟨result, List.mem_append_left _ present⟩
    · exact .inr now
  · intro fd result present ends isHeld
    exact reads.ended fd result (earlier fd result present) ends (subset isHeld)
  · intro fd present
    rcases List.mem_append.mp present with before | last
    · exact reads.accepted fd before
    · exact absurd (List.mem_singleton.mp last).symm (notAccepted fd)

/-- The loop at `out` closes whatever is left. -/
theorem closes (reads : Reads given passLog held current) (fds : List Int) :
    Reads given (passLog ++ fds.map .close) [] current := by
  induction fds generalizing passLog held with
  | nil =>
      rw [List.map_nil, List.append_nil]
      exact ⟨reads.onlyTakenUp, reads.eachRead, by simp, reads.accepted⟩
  | cons fd fds inductionHypothesis =>
      have first : Reads given (passLog ++ [.close fd]) [] current :=
        reads.other (by simp) rfl (by simp) (List.nil_subset _)
      simpa using inductionHypothesis first

/-- A connection is taken up. -/
theorem readable (reads : Reads given passLog held none) (fd : Int) :
    Reads given (passLog ++ [.readable fd]) held (some fd) := by
  have newlyTaken : takenUp (passLog ++ [.readable fd]) =
      takenUp passLog ++ [fd] := by
    rw [takenUp_append]
    rfl
  refine ⟨?_, ?_, ?_, ?_⟩
  · intro other result present
    rw [newlyTaken]
    exact List.mem_append_left _
      (reads.onlyTakenUp other result (by simpa using present))
  · intro other taken
    rw [newlyTaken, List.mem_append, List.mem_singleton] at taken
    rcases taken with before | rfl
    · obtain ⟨result, present⟩ :=
        (reads.eachRead other before).resolve_right nofun
      exact .inl ⟨result, List.mem_append_left _ present⟩
    · exact .inr rfl
  · intro other result present
    exact reads.ended other result (by simpa using present)
  · intro other present
    exact reads.accepted other (by simpa using present)

/-- The current connection is read; if this ends it, it is not held any more. -/
theorem recv {fd : Int} (reads : Reads given passLog held current)
    (only : ∀ other, current = some other → other = fd)
    (taken : fd ∈ takenUp passLog)
    {result : RecvResult} {rest : List Int} (subset : rest ⊆ held)
    (ends : result = .endOfStream ∨ result = .failed → fd ∉ rest) :
    Reads given (passLog ++ [.recv fd result]) rest none := by
  have sameTaken : takenUp (passLog ++ [.recv fd result]) =
      takenUp passLog := by
    rw [takenUp_append]
    exact List.append_nil _
  refine ⟨?_, ?_, ?_, ?_⟩
  · intro other outcome present
    rw [sameTaken]
    rcases List.mem_append.mp present with before | last
    · exact reads.onlyTakenUp other outcome before
    · cases List.mem_singleton.mp last
      exact taken
  · intro other isTaken
    rw [sameTaken] at isTaken
    rcases reads.eachRead other isTaken with ⟨outcome, present⟩ | now
    · exact .inl ⟨outcome, List.mem_append_left _ present⟩
    · exact .inl ⟨result, by simp [only other now]⟩
  · intro other outcome present ending isHeld
    rcases List.mem_append.mp present with before | last
    · exact reads.ended other outcome before ending (subset isHeld)
    · cases List.mem_singleton.mp last
      exact ends ending isHeld
  · intro other present
    exact reads.accepted other (by simpa using present)

/-- A connection is accepted before any is taken up. -/
theorem accept {fd : Int} (reads : Reads given passLog held current)
    (none : takenUp passLog = []) (isGiven : given ⊆ held) (free : fd ∉ held) :
    Reads given (passLog ++ [.accept (.ok fd)]) (held ++ [fd]) current := by
  have noRead :
      ∀ other result, .recv other result ∉ passLog ++ [.accept (.ok fd)] := by
    intro other result present
    have taken := reads.onlyTakenUp other result (by simpa using present)
    rw [none] at taken
    cases taken
  have noneTaken : takenUp (passLog ++ [.accept (.ok fd)]) = [] := by
    rw [takenUp_append, none]
    rfl
  refine ⟨?_, ?_, ?_, ?_⟩
  · intro other result present
    exact absurd present (noRead other result)
  · intro other taken
    rw [noneTaken] at taken
    cases taken
  · intro other result present
    exact absurd present (noRead other result)
  · intro other present isOther
    rcases List.mem_append.mp present with before | last
    · exact reads.accepted other before isOther
    · cases List.mem_singleton.mp last
      exact free (isGiven isOther)

end Reads

/-! ## The state within a pass -/

/-- What the scan sees of the polled entries. Those it has left behind are as
they were polled or marked. -/
structure Polled (begin : Server) (revents : List (BitVec 16))
    (server : Server) : Prop where
  size : server.currentSize = begin.nfds
  nfds : begin.nfds ≤ server.nfds
  marked : ∀ index (inside : index < 32), index < begin.nfds →
    server.fds[index].fd = begin.fds[index].fd ∨ server.fds[index].fd = -1
  revents : ∀ index (inside : index < 32), index < begin.nfds →
    revents[index]? = some server.fds[index].revents
  fd : ∀ index (inside : index < 32), server.i ≤ index → index < begin.nfds →
    server.fds[index].fd = begin.fds[index].fd

/-- The connection taken up last, if it has to be read next. -/
def Server.current (server : Server) : Option Int :=
  match server.pc with
  | .recv => server.fds[server.i]?.map Pollfd.fd
  | _ => none

/-- The state of a pass with the calls `passLog` made since its `poll`. -/
structure InPass (begin : Server) (revents : List (BitVec 16))
    (passLog : List Entry)
    (server : Server) : Prop where
  log : server.log = begin.log ++
    .poll (descriptors begin.fds begin.nfds) (.ready revents) :: passLog
  listenSd : server.listenSd = begin.listenSd
  progress :
    match server.pc with
    | .setup _ => False
    | .scan =>
        Polled begin revents server ∧
          takenUp passLog =
            served begin.listenSd ((polled begin revents).take server.i)
    | .accept => Polled begin revents server ∧ takenUp passLog = []
    | .recv | .send | .killed =>
        Polled begin revents server ∧
          takenUp passLog =
            served begin.listenSd ((polled begin revents).take (server.i + 1)) ∧
          ∃ inside : server.i < 32, server.fds[server.i].fd ∈ takenUp passLog
    | .optimize | .fault (.read _) =>
        Polled begin revents server ∧
          takenUp passLog = served begin.listenSd (polled begin revents)
    | .poll => takenUp passLog = served begin.listenSd (polled begin revents)
    | .out | .exited _ | .fault (.write _) => takenUp passLog = []
  reads : Reads (descriptors begin.fds begin.nfds) passLog
    (Use.held (uses server.log))
    server.current

namespace Polled

variable {begin server next : Server} {revents : List (BitVec 16)}

/-- The scan moves on while the table stays as it is. -/
theorem advance (polled : Polled begin revents server)
    (size : next.currentSize = server.currentSize)
    (nfds : next.nfds = server.nfds)
    (fds : next.fds = server.fds) (i : server.i ≤ next.i) :
    Polled begin revents next where
  size := size.trans polled.size
  nfds := nfds ▸ polled.nfds
  marked := fds ▸ polled.marked
  revents := fds ▸ polled.revents
  fd := fun index inside later before => by
    rw [fds]
    exact polled.fd index inside (Nat.le_trans i later) before

/-- An entry is written behind the polled entries or before the position of the
scan, with the `revents` it had. -/
theorem set (polled : Polled begin revents server) {index : Nat}
    (inside : index < 32)
    (entry : Pollfd) (kept : entry.revents = server.fds[index].revents)
    (away : begin.nfds ≤ index ∨ index < next.i ∧ entry.fd = -1)
    (size : next.currentSize = server.currentSize)
    (nfds : server.nfds ≤ next.nfds)
    (fds : next.fds = server.fds.set index entry) (i : server.i ≤ next.i) :
    Polled begin revents next where
  size := size.trans polled.size
  nfds := Nat.le_trans polled.nfds nfds
  marked := fun other bound before => by
    rw [fds, Vector.getElem_set]
    split
    · exact .inr (away.resolve_left (by omega)).2
    · exact polled.marked other bound before
  revents := fun other bound before => by
    rw [fds, polled.revents other bound before, Vector.getElem_set]
    split
    · subst other
      rw [kept]
    · rfl
  fd := fun other bound later before => by
    rw [fds, Vector.getElem_set_ne _ _ (by omega)]
    exact polled.fd other bound (Nat.le_trans i later) before

/-- There are as many entries as results. -/
theorem length_polled (whole : revents.length = begin.nfds)
    (fits : begin.nfds ≤ 32) :
    (PollSocket.polled begin revents).length = begin.nfds := by
  rw [PollSocket.polled, List.length_zip, length_descriptors]
  omega

/-- What the scan reads at its position is the polled entry there. -/
theorem getElem_polled (polled : Polled begin revents server)
    (whole : revents.length = begin.nfds)
    (inside : server.i < 32) (more : server.i < begin.nfds)
    (bound : server.i < (PollSocket.polled begin revents).length) :
    (PollSocket.polled begin revents)[server.i] =
      (server.fds[server.i].fd, server.fds[server.i].revents) := by
  have bits := polled.revents server.i inside more
  rw [List.getElem?_eq_getElem (by omega), Option.some.injEq] at bits
  simp only [PollSocket.polled, List.getElem_zip,
    getElem_descriptors begin.fds inside, bits,
    polled.fd server.i inside (Nat.le_refl _) more]

/-- The scan serves the entry it stands at if that is readable. -/
theorem served_take_succ (polled : Polled begin revents server)
    (whole : revents.length = begin.nfds) (fits : begin.nfds ≤ 32)
    (inside : server.i < 32) (more : server.i < begin.nfds) :
    served begin.listenSd ((PollSocket.polled begin revents).take
      (server.i + 1)) =
      served begin.listenSd ((PollSocket.polled begin revents).take server.i) ++
        if server.fds[server.i].revents = pollIn ∧
          server.fds[server.i].fd ≠ begin.listenSd
        then [server.fds[server.i].fd] else [] := by
  have bound : server.i < (PollSocket.polled begin revents).length := by
    rw [length_polled whole fits]
    exact more
  rw [PollSocket.served_take_succ _ _ bound,
    polled.getElem_polled whole inside more bound]

/-- The listening socket is not served as a connection. -/
theorem served_first (polled : Polled begin revents server)
    (whole : revents.length = begin.nfds) (fits : begin.nfds ≤ 32)
    (nonempty : 0 < begin.nfds)
    (first : server.i = 0) (listening : server.fds[0].fd = begin.listenSd) :
    served begin.listenSd ((PollSocket.polled begin revents).take
      (server.i + 1)) = [] := by
  have notServed : ¬(server.fds[server.i].fd ≠ begin.listenSd) := by
    simp only [first]
    exact not_not_intro listening
  rw [polled.served_take_succ whole fits (by omega) (by omega),
    if_neg fun ready => notServed ready.2, first, List.take_zero, served_nil,
    List.nil_append]

end Polled

/-- The first entries are served first. -/
theorem served_take_prefix (listenSd : Int) (entries : List (Int × BitVec 16))
    (count : Nat) :
    served listenSd (entries.take count) <+: served listenSd entries :=
  ((List.take_prefix count entries).filter _).map _

/-- Only in front of `recv` there is a current connection. -/
theorem Server.current_of_ne {server : Server} (pc : server.pc ≠ .recv) :
    server.current = none := by
  unfold Server.current
  split
  · exact absurd ‹_› pc
  · rfl

/-- The current connection is that of the entry at hand. -/
theorem Server.current_eq {server : Server} (pc : server.pc = .recv)
    (inside : server.i < 32)
    (fd : Int) (isCurrent : server.current = some fd) :
    fd = server.fds[server.i].fd := by
  simpa [Server.current, pc, inside] using isCurrent.symm

/-- A pass begins with the call of `poll`. -/
theorem InPass.begins {begin next : Server} {revents : List (BitVec 16)}
    (stepped : step begin (.poll (.ready revents)) = some next) :
    revents.length = begin.nfds ∧ InPass begin revents [] next := by
  cases step_transition stepped with
  | pollReady _ whole =>
      refine ⟨whole, rfl, rfl, ⟨⟨rfl, Nat.le_refl _, ?_, ?_, ?_⟩, rfl⟩,
        Reads.nil⟩
      · intro index inside _
        simp only [storeRevents, Vector.getElem_mapIdx]
        cases revents[index]? <;> exact .inl rfl
      · intro index inside before
        have bound : index < revents.length := by omega
        simp only [storeRevents, Vector.getElem_mapIdx,
          List.getElem?_eq_getElem bound]
      · intro index inside _ _
        simp only [storeRevents, Vector.getElem_mapIdx]
        cases revents[index]? <;> rfl

/-- While the scan stands at the listening socket, everything polled is held. -/
theorem given_subset_held {begin server : Server} {revents : List (BitVec 16)}
    (fits : begin.nfds ≤ 32) (polled : Polled begin revents server)
    (first : server.i = 0)
    (table : server.TableHolds) (unmarked : server.UnmarkedFrom 0) :
    descriptors begin.fds begin.nfds ⊆ Use.held (uses server.log) := by
  intro fd present
  obtain ⟨index, bound, rfl⟩ := List.getElem_of_mem present
  have inside : index < min begin.nfds 32 := by simpa using bound
  have more := polled.nfds
  rw [getElem_descriptors begin.fds (by omega),
    ← polled.fd index (by omega) (by omega) (by omega), ← table.kept,
    List.mem_filter]
  have listed : index < (descriptors server.fds server.nfds).length := by
    have := table.nfds_le
    rw [length_descriptors]
    omega
  refine ⟨?_,
    by simpa using unmarked index (by omega) (Nat.zero_le _) (by omega)⟩
  rw [← getElem_descriptors server.fds (by omega) listed]
  exact List.getElem_mem listed

section Step

variable {begin server next : Server} {revents : List (BitVec 16)}
  {passLog : List Entry}

/-- The current connection is closed and marked at the end of its reads. -/
theorem InPass.closeEntry (server : Server)
    (log : server.log = begin.log ++
      .poll (descriptors begin.fds begin.nfds) (.ready revents) :: passLog)
    (listenSd : server.listenSd = begin.listenSd)
    (polled : Polled begin revents server)
    (taken : takenUp passLog =
      served begin.listenSd ((PollSocket.polled begin revents).take
        (server.i + 1)))
    (inside : server.i < 32)
    (reads : Reads (descriptors begin.fds begin.nfds)
      (passLog ++ [.close server.fds[server.i].fd])
      ((Use.held (uses server.log)).erase server.fds[server.i].fd) none) :
    InPass begin revents (passLog ++ [.close server.fds[server.i].fd])
      (server.closeEntry inside) where
  log := by simp [Server.closeEntry, record, log]
  listenSd := listenSd
  progress := by
    refine ⟨polled.set inside { server.fds[server.i] with fd := -1 } rfl
      (.inr ⟨Nat.lt_succ_self _, rfl⟩) rfl (Nat.le_refl _) rfl
      (Nat.le_succ _), ?_⟩
    rw [takenUp_append, taken]
    exact List.append_nil _
  reads := by
    have held : Use.held (uses (server.closeEntry inside).log) =
        (Use.held (uses server.log)).erase server.fds[server.i].fd := by
      simp [Server.closeEntry, record, Entry.use]
    rw [held]
    exact reads

/-- The scan moves on, comes to the listening socket or takes a connection
up. -/
theorem InPass.scan_step (whole : revents.length = begin.nfds)
    (fits : begin.nfds ≤ 32)
    {event : Event} (pc : server.pc = .scan) (invariant : Invariant server)
    (transition : Transition server event next)
    (inPass : InPass begin revents passLog server) :
    ∃ more, InPass begin revents (passLog ++ more) next := by
  obtain ⟨log, listenSd, progress, reads⟩ := inPass
  rw [pc] at progress
  obtain ⟨polled, taken⟩ := progress
  rw [current_of_ne (by simp [pc])] at reads
  cases transition with
  | scanned _ done =>
      refine ⟨[], by simpa using log, listenSd,
        ⟨polled.advance rfl rfl rfl (Nat.le_refl _), ?_⟩,
        (List.append_nil passLog).symm ▸ reads⟩
      rw [List.append_nil, taken, List.take_of_length_le]
      rw [Polled.length_polled whole fits, ← polled.size]
      exact done
  | scanOutside _ more outside =>
      have size := polled.size
      omega
  | scanSkip _ more inside quiet =>
      refine ⟨[], by simpa using log, listenSd, ?_, ?_⟩
      · simp only [pc, List.append_nil]
        refine ⟨polled.advance rfl rfl rfl (Nat.le_succ _), ?_⟩
        rw [polled.served_take_succ whole fits inside (polled.size ▸ more),
          if_neg (fun ready => quiet ready.1), List.append_nil, taken]
      · rw [current_of_ne (by simp [pc]), List.append_nil]
        exact reads
  | scanListening _ more inside ready isListening =>
      have first :=
        (listening_iff_of_scan invariant pc more inside).mp isListening
      refine ⟨[], by simpa using log, listenSd,
        ⟨polled.advance rfl rfl rfl (Nat.le_refl _), ?_⟩,
        (List.append_nil passLog).symm ▸ reads⟩
      rw [List.append_nil, taken, first, List.take_zero, served_nil]
  | scanReadable _ more inside ready connection =>
      have newlyTaken :
          takenUp (passLog ++ [.readable server.fds[server.i].fd]) =
          takenUp passLog ++ [server.fds[server.i].fd] := by
        rw [takenUp_append]
        rfl
      refine ⟨[.readable server.fds[server.i].fd], by simp [record, log],
        listenSd,
        ⟨polled.advance rfl rfl rfl (Nat.le_refl _), ?_, inside, ?_⟩, ?_⟩
      · rw [newlyTaken, taken]
        show _ = served _ (List.take (server.i + 1) _)
        rw [polled.served_take_succ whole fits inside (polled.size ▸ more),
          if_pos ⟨ready, listenSd ▸ connection⟩]
      · rw [newlyTaken]
        exact List.mem_append_right _ (List.mem_singleton_self _)
      · have here : server.fds[server.i]? = some server.fds[server.i] := by
          simp [inside]
        simpa [record, Entry.use, Server.current, here] using
          reads.readable server.fds[server.i].fd
  | _ => cases pc.symm.trans ‹server.pc = _›

/-- At the listening socket connections are accepted until there is none or an
error. -/
theorem InPass.accept_step (whole : revents.length = begin.nfds)
    (fits : begin.nfds ≤ 32)
    (nonempty : 0 < begin.nfds) {event : Event} (pc : server.pc = .accept)
    (invariant : Invariant server) (transition : Transition server event next)
    (inPass : InPass begin revents passLog server) :
    ∃ more, InPass begin revents (passLog ++ more) next := by
  obtain ⟨log, listenSd, progress, reads⟩ := inPass
  rw [pc] at progress
  obtain ⟨polled, none⟩ := progress
  rw [current_of_ne (by simp [pc])] at reads
  rw [Invariant, pc] at invariant
  obtain ⟨table, first, _, _, unmarked⟩ := invariant
  have isGiven := given_subset_held fits polled first table unmarked
  have nothing := polled.served_first whole fits nonempty first (listenSd ▸ table.listening)
  cases transition with
  | acceptSkipped _ _ =>
      refine ⟨[], by simpa using log, listenSd,
        ⟨polled.advance rfl rfl rfl (Nat.le_succ _), ?_⟩,
        (List.append_nil passLog).symm ▸ reads⟩
      rw [List.append_nil, none]
      exact nothing.symm
  | acceptFailed _ _ =>
      refine ⟨[.accept .failed], by simp [record, log], listenSd, ?_, ?_⟩
      · show takenUp (passLog ++ [.accept .failed]) = []
        rw [takenUp_append, none]
        rfl
      · show Reads _ _
          (Use.held (uses (server.log ++ [.accept .failed]))) Option.none
        rw [uses_concat_quiet _ rfl]
        exact reads.other (by simp) rfl (by simp) (List.Subset.refl _)
  | acceptWouldBlock _ _ =>
      refine ⟨[.accept .wouldBlock], by simp [record, log], listenSd,
        ⟨polled.advance rfl rfl rfl (Nat.le_succ _), ?_⟩, ?_⟩
      · rw [takenUp_append, none]
        exact nothing.symm
      · show Reads _ _ (Use.held (uses (server.log ++ [.accept .wouldBlock]))) Option.none
        rw [uses_concat_quiet _ rfl]
        exact reads.other (by simp) rfl (by simp) (List.Subset.refl _)
  | @accepted fd _ _ nonneg free inside =>
      refine ⟨[.accept (.ok fd)], by simp [record, log], listenSd, ?_, ?_⟩
      · simp only [record, pc]
        refine ⟨polled.set inside { server.fds[server.nfds] with fd := fd, events := pollIn } rfl
          (.inl polled.nfds) rfl (Nat.le_succ _) rfl (Nat.le_refl _), ?_⟩
        rw [takenUp_append, none]
        rfl
      · rw [current_of_ne (by simp [record, pc])]
        have held : Use.held (uses (server.log ++ [.accept (.ok fd)])) =
            Use.held (uses server.log) ++ [fd] := by simp [Entry.use]
        exact held ▸ reads.accept none isGiven free
  | @acceptOutside fd _ _ nonneg free _ =>
      refine ⟨[.accept (.ok fd)], by simp [record, log], listenSd, ?_, ?_⟩
      · show takenUp (passLog ++ [.accept (.ok fd)]) = []
        rw [takenUp_append, none]
        rfl
      · have held : Use.held (uses (server.log ++ [.accept (.ok fd)])) =
            Use.held (uses server.log) ++ [fd] := by simp [Entry.use]
        exact held ▸ reads.accept none isGiven free
  | _ => cases pc.symm.trans ‹server.pc = _›

/-- The connection taken up last is read. -/
theorem InPass.recv_step {event : Event} (pc : server.pc = .recv)
    (invariant : Invariant server)
    (transition : Transition server event next)
    (inPass : InPass begin revents passLog server) :
    ∃ more, InPass begin revents (passLog ++ more) next := by
  obtain ⟨log, listenSd, progress, reads⟩ := inPass
  rw [pc] at progress
  obtain ⟨polled, taken, inside, isTaken⟩ := progress
  cases transition with
  | recvOutside _ outside => omega
  | @received chunk _ _ _ _ =>
      have same :
          takenUp (passLog ++ [.recv server.fds[server.i].fd (.data chunk)]) =
          takenUp passLog := by
        rw [takenUp_append]
        exact List.append_nil _
      refine ⟨[.recv server.fds[server.i].fd (.data chunk)],
        by simp [record, log], listenSd,
        ⟨polled.advance rfl rfl rfl (Nat.le_refl _), same.trans taken, inside,
          same.symm ▸ isTaken⟩, ?_⟩
      show Reads _ _ (Use.held (uses (server.log ++ [_]))) none
      rw [uses_concat_quiet _ rfl]
      exact reads.recv (current_eq pc inside) isTaken (List.Subset.refl _)
        (by simp)
  | recvWouldBlock _ _ _ =>
      refine ⟨[.recv server.fds[server.i].fd .wouldBlock],
        by simp [record, log], listenSd,
        ⟨polled.advance rfl rfl rfl (Nat.le_succ _), ?_⟩, ?_⟩
      · rw [takenUp_append, taken]
        exact List.append_nil _
      · show Reads _ _ (Use.held (uses (server.log ++ [_]))) none
        rw [uses_concat_quiet _ rfl]
        exact reads.recv (current_eq pc inside) isTaken (List.Subset.refl _)
          (by simp)
  | @recvClosed result _ _ ends =>
      rw [Invariant, pc] at invariant
      have distinct := invariant.1.used.nodup
      refine ⟨[.recv server.fds[server.i].fd result] ++
        [.close server.fds[server.i].fd], ?_⟩
      rw [← List.append_assoc]
      refine InPass.closeEntry (server.record _)
        (by simp [record, log]) listenSd
        (polled.advance rfl rfl rfl (Nat.le_refl _)) ?_ inside ?_
      · rw [takenUp_append, taken]
        exact List.append_nil _
      · show Reads _ _ ((Use.held (uses (server.log ++ [_]))).erase _) none
        rw [uses_concat_quiet _ rfl]
        refine (reads.recv
          (current_eq pc inside) isTaken List.erase_subset ?_).other (by simp)
          rfl (by simp) (List.Subset.refl _)
        intro _ still
        exact (distinct.mem_erase_iff.mp still).1 rfl
  | _ => cases pc.symm.trans ‹server.pc = _›

/-- What has been read is sent back. -/
theorem InPass.send_step {event : Event} (pc : server.pc = .send)
    (transition : Transition server event next)
    (inPass : InPass begin revents passLog server) :
    ∃ more, InPass begin revents (passLog ++ more) next := by
  obtain ⟨log, listenSd, progress, reads⟩ := inPass
  rw [pc] at progress
  obtain ⟨polled, taken, inside, isTaken⟩ := progress
  rw [current_of_ne (by simp [pc])] at reads
  cases transition with
  | sendOutside _ outside => omega
  | @sent beyond count _ _ _ =>
      have same : takenUp (passLog ++ [.send server.fds[server.i].fd
          (message server.buffer beyond) (.sent count)]) = takenUp passLog := by
        rw [takenUp_append]
        exact List.append_nil _
      refine ⟨[.send server.fds[server.i].fd (message server.buffer beyond)
        (.sent count)],
        by simp [record, log], listenSd,
        ⟨polled.advance rfl rfl rfl (Nat.le_refl _),
          same.trans taken, inside, same.symm ▸ isTaken⟩, ?_⟩
      show Reads _ _ (Use.held (uses (server.log ++ [_]))) _
      rw [uses_concat_quiet _ rfl]
      exact (reads.other (by simp) rfl (by simp) (List.Subset.refl _)).weaken
  | @sendFailed beyond _ _ =>
      refine ⟨[.send server.fds[server.i].fd
        (message server.buffer beyond) .failed] ++
        [.close server.fds[server.i].fd], ?_⟩
      rw [← List.append_assoc]
      refine InPass.closeEntry (server.record _)
        (by simp [record, log]) listenSd
        (polled.advance rfl rfl rfl (Nat.le_refl _)) ?_ inside ?_
      · rw [takenUp_append, taken]
        exact List.append_nil _
      · show Reads _ _ ((Use.held (uses (server.log ++ [_]))).erase _) none
        rw [uses_concat_quiet _ rfl]
        exact (reads.other (by simp) rfl (by simp) (List.Subset.refl _)).other
          (by simp) rfl
          (by simp) List.erase_subset
  | @sendKilled beyond _ _ =>
      have same : takenUp (passLog ++ [.send server.fds[server.i].fd
          (message server.buffer beyond) .killed]) = takenUp passLog := by
        rw [takenUp_append]
        exact List.append_nil _
      refine ⟨[.send server.fds[server.i].fd
        (message server.buffer beyond) .killed],
        by simp [record, log], listenSd,
        ⟨polled.advance rfl rfl rfl (Nat.le_refl _),
          same.trans taken, inside, same.symm ▸ isTaken⟩, ?_⟩
      show Reads _ _ (Use.held (uses (server.log ++ [_]))) _
      rw [uses_concat_quiet _ rfl]
      exact reads.other (by simp) rfl (by simp) (List.Subset.refl _)
  | _ => cases pc.symm.trans ‹server.pc = _›

/-- The scan is over and the table is compacted. -/
theorem InPass.optimize_step {event : Event} (pc : server.pc = .optimize)
    (transition : Transition server event next)
    (inPass : InPass begin revents passLog server) :
    ∃ more, InPass begin revents (passLog ++ more) next := by
  obtain ⟨log, listenSd, progress, reads⟩ := inPass
  rw [pc] at progress
  obtain ⟨polled, taken⟩ := progress
  rw [current_of_ne (by simp [pc])] at reads
  cases transition with
  | optimized _ result =>
      exact ⟨[], by simpa using log, listenSd,
        (List.append_nil passLog).symm ▸ taken,
        (List.append_nil passLog).symm ▸ reads⟩
  | optimizeOutside _ result =>
      obtain ⟨index, rfl⟩ := compact_error result
      exact ⟨[], by simpa using log, listenSd,
        ⟨polled.advance rfl rfl rfl (Nat.le_refl _),
          (List.append_nil passLog).symm ▸ taken⟩,
        (List.append_nil passLog).symm ▸ reads⟩
  | _ => cases pc.symm.trans ‹server.pc = _›

/-- The loop has been left, and everything is closed. -/
theorem InPass.out_step {event : Event} (pc : server.pc = .out)
    (invariant : Invariant server)
    (transition : Transition server event next)
    (inPass : InPass begin revents passLog server) :
    ∃ more, InPass begin revents (passLog ++ more) next := by
  obtain ⟨log, listenSd, progress, reads⟩ := inPass
  rw [pc] at progress
  rw [Invariant, pc] at invariant
  rw [current_of_ne (by simp [pc])] at reads
  cases transition with
  | left _ =>
      refine ⟨((descriptors server.fds server.nfds).filter (0 ≤ ·)).map .close,
        by simp [out, log], listenSd, ?_, ?_⟩
      · show takenUp (passLog ++ _) = []
        rw [takenUp_append, takenUp_map_close, List.append_nil]
        exact progress
      · have released : Use.held (uses server.out.log) = [] :=
          invariant.closes_all.2
        rw [released]
        exact reads.closes _
  | _ => cases pc.symm.trans ‹server.pc = _›

/-- Every step within a pass extends its calls and keeps the scan in order. -/
theorem InPass.step (whole : revents.length = begin.nfds)
    (beginHolds : Invariant begin)
    (beginPc : begin.pc = .poll) {event : Event}
    (notPoll : event.isPoll = false)
    (invariant : Invariant server) (transition : Transition server event next)
    (inPass : InPass begin revents passLog server) :
    ∃ more, InPass begin revents (passLog ++ more) next := by
  rw [Invariant, beginPc] at beginHolds
  have fits := beginHolds.1.nfds_le
  cases pc : server.pc with
  | setup =>
      have progress := inPass.progress
      rw [pc] at progress
      exact progress.elim
  | poll =>
      cases transition with
      | pollFailed | pollReady => cases notPoll
      | _ => cases pc.symm.trans ‹server.pc = _›
  | scan => exact inPass.scan_step whole fits pc invariant transition
  | accept =>
      exact inPass.accept_step whole fits beginHolds.1.nfds_pos pc invariant
        transition
  | recv => exact inPass.recv_step pc invariant transition
  | send => exact inPass.send_step pc transition
  | optimize => exact inPass.optimize_step pc transition
  | out => exact inPass.out_step pc invariant transition
  | exited | killed | fault =>
      cases transition <;> cases pc.symm.trans ‹server.pc = _›

end Step

/-- What holds after the `poll` of a pass and is preserved by its other steps
holds throughout. -/
theorem Pass.invariant {begin next : Server} {revents : List (BitVec 16)}
    {rest : List Event}
    (pass : Pass begin revents rest next) (holds : Invariant begin)
    (claim : List Event → Server → Prop)
    (begins : ∀ first, step begin (.poll (.ready revents)) = some first →
      claim [] first)
    (preserved : ∀ past server event later, event.isPoll = false →
      Invariant server →
      Transition server event later → claim past server →
      claim (past ++ [event]) later) :
    claim rest next := by
  obtain ⟨single, ran⟩ := pass
  obtain ⟨first, stepped, ranRest⟩ := Option.bind_eq_some_iff.mp ran
  have firstHolds := step_invariant _ _ _ holds stepped
  have whole : (∀ event ∈ rest, event.isPoll = false) → claim rest next := by
    refine Machine.run_invariant_past
      (fun past server => (∀ event ∈ past, event.isPoll = false) →
        claim past server)
      (fun _ => begins first stepped) ?_ ranRest
    intro past server event later ranPast claimed stepped noPoll
    exact preserved past server event later
      (noPoll event (List.mem_append_right _ (List.mem_singleton_self _)))
      (Machine.run_invariant Invariant step_invariant firstHolds ranPast)
      (step_transition stepped)
      (claimed fun other present =>
        noPoll other (List.mem_append_left _ present))
  exact whole single

/-- What one pass has done, at its end or wherever it has got to. -/
theorem Pass.inPass {begin next : Server} {revents : List (BitVec 16)}
    {rest : List Event} (pass : Pass begin revents rest next)
    (holds : Invariant begin) :
    begin.pc = .poll ∧ revents.length = begin.nfds ∧ Invariant next ∧
      ∃ passLog, InPass begin revents passLog next := by
  refine pass.invariant holds
    (fun _ server => begin.pc = .poll ∧ revents.length = begin.nfds ∧
      Invariant server ∧ ∃ passLog, InPass begin revents passLog server) ?_ ?_
  · intro first stepped
    have pc : begin.pc = .poll := by
      cases step_transition stepped with
      | pollReady pc _ => exact pc
    obtain ⟨whole, begins⟩ := InPass.begins stepped
    exact ⟨pc, whole, step_invariant _ _ _ holds stepped, [], begins⟩
  · rintro _ server event later notPoll serverHolds transition
      ⟨pc, whole, _, passLog, inPass⟩
    obtain ⟨more, laterInPass⟩ :=
      inPass.step whole holds pc notPoll serverHolds transition
    exact ⟨pc, whole, transition.invariant serverHolds, _, laterInPass⟩

/-- At every point of a pass the connections taken up are the first of those to
be served. -/
theorem InPass.takenUp_prefix {begin server : Server}
    {revents : List (BitVec 16)}
    {passLog : List Entry} (inPass : InPass begin revents passLog server) :
    takenUp passLog <+: served begin.listenSd (polled begin revents) := by
  have progress := inPass.progress
  cases pc : server.pc with
  | setup =>
      rw [pc] at progress
      exact progress.elim
  | scan =>
      rw [pc] at progress
      rw [progress.2]
      exact served_take_prefix _ _ _
  | recv | send | killed =>
      rw [pc] at progress
      rw [progress.2.1]
      exact served_take_prefix _ _ _
  | accept =>
      rw [pc] at progress
      rw [progress.2]
      exact List.nil_prefix
  | optimize =>
      rw [pc] at progress
      exact progress.2 ▸ List.prefix_refl _
  | poll =>
      rw [pc] at progress
      exact progress ▸ List.prefix_refl _
  | out | exited =>
      rw [pc] at progress
      exact progress.symm ▸ List.nil_prefix
  | fault access =>
      rw [pc] at progress
      cases access with
      | read => exact progress.2 ▸ List.prefix_refl _
      | write => exact progress.symm ▸ List.nil_prefix

/-! ## The two ends of a pass -/

/-- The pass has returned to the head of the loop or has left it through
`out`. -/
def Server.passEnded (server : Server) : Prop :=
  server.pc = .poll ∨ ∃ status, server.pc = .exited status

/-- The places of a pass that has not left the loop. -/
def Pc.inLoop : Pc → Bool
  | .setup _ | .out | .exited _ => false
  | _ => true

/-- A step leaves the loop only by a failure of `accept`. -/
theorem Transition.inLoop {server next : Server} {event : Event}
    (transition : Transition server event next)
    (inside : server.pc.inLoop = true)
    (notPoll : event.isPoll = false) (notFailed : event ≠ .accept .failed) :
    next.pc.inLoop = true := by
  cases transition <;>
    simp_all [Pc.inLoop, Event.isPoll, Server.closeEntry, record]

/-- Behind the loop the server exits. -/
theorem Transition.outLoop {server next : Server} {event : Event}
    (transition : Transition server event next)
    (outside : server.pc = .out ∨ ∃ status, server.pc = .exited status) :
    ∃ status, next.pc = .exited status := by
  cases transition <;> simp_all [out]

/-- A pass has not left the loop unless `accept` failed with an error other than
`EWOULDBLOCK`. -/
theorem Pass.inLoop_iff {begin next : Server} {revents : List (BitVec 16)}
    {rest : List Event} (pass : Pass begin revents rest next) :
    next.pc.inLoop = true ↔ .accept .failed ∉ rest := by
  obtain ⟨single, ran⟩ := pass
  obtain ⟨first, stepped, ranRest⟩ := Option.bind_eq_some_iff.mp ran
  have inside : first.pc.inLoop = true := by
    cases step_transition stepped with
    | pollReady => rfl
  clear ran stepped
  induction rest generalizing first with
  | nil =>
      cases ranRest
      simp [inside]
  | cons event rest inductionHypothesis =>
      obtain ⟨second, stepped, ranLater⟩ := Option.bind_eq_some_iff.mp ranRest
      have transition := step_transition stepped
      by_cases failed : event = .accept .failed
      · subst event
        have left : second.pc = .out ∨ ∃ status,
            second.pc = .exited status := by
          cases transition with
          | acceptFailed => exact .inl rfl
        have gone : next.pc = .out ∨ ∃ status, next.pc = .exited status :=
          Machine.run_invariant
            (fun server => server.pc = .out ∨ ∃ status,
              server.pc = .exited status)
            (fun _ _ _ outside stepped =>
              .inr ((step_transition stepped).outLoop outside))
            left ranLater
        refine iff_of_false ?_ (fun none => none List.mem_cons_self)
        rcases gone with pc | ⟨status, pc⟩ <;> simp [pc, Pc.inLoop]
      · rw [List.mem_cons, not_or]
        have later := inductionHypothesis
          (fun event member => single event (List.mem_cons_of_mem _ member))
            second ranLater
          (transition.inLoop inside (single event List.mem_cons_self) failed)
        exact later.trans ⟨fun none => ⟨fun same => failed same.symm, none⟩,
          fun none => none.2⟩

/-- A pass that has ended is back at the head of the loop unless `accept` failed
with an error other than `EWOULDBLOCK`. -/
theorem Pass.returns_iff {begin next : Server} {revents : List (BitVec 16)}
    {rest : List Event} (pass : Pass begin revents rest next)
    (ended : next.passEnded) :
    next.pc = .poll ↔ .accept .failed ∉ rest := by
  rw [← pass.inLoop_iff]
  rcases ended with pc | ⟨status, pc⟩ <;> simp [pc, Pc.inLoop]

end PollSocket
end LinuxCPractice

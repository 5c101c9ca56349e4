import MuduoCore.Lib.NumbersAndDots
import MuduoCore.TcpServer.Names

/-!
# InetAddress

`src/InetAddress.cpp`: an IPv4 address with its port, as the kernel keeps it, and its text. The text of
the listening address is part of every connection name, so what it can say decides which names of two
servers are the same.
-/

namespace MuduoCore

open NumbersAndDots

def AF_INET : BitVec 16 := 2

/-- `sin_port` and `s_addr` are in network order. -/
structure SockaddrIn where
  sin_family : BitVec 16
  sin_port : BitVec 16
  s_addr : BitVec 32
  sin_zero : BitVec 64
  deriving DecidableEq, Repr

structure InetAddress where
  addr : SockaddrIn
  deriving DecidableEq, Repr

namespace InetAddress

/-- From a port in host order and the text of an address. -/
def new (port : BitVec 16) (ip : List Char) : InetAddress where
  addr :=
    { sin_family := AF_INET
      sin_port := htons port
      s_addr := inetAddr ip
      sin_zero := 0 }

def toIp (a : InetAddress) : List Char := inetNtop a.addr.s_addr

/-- `sprintf` prints behind the address into a buffer of 64 bytes. -/
def toIpPort (a : InetAddress) : List Char :=
  inetNtop a.addr.s_addr ++ ':' :: Nat.toDigits 10 (ntohs a.addr.sin_port).toNat

def toPort (a : InetAddress) : BitVec 16 := ntohs a.addr.sin_port

/-- What the constructor from a port leaves in the other fields. -/
def IsInternet (a : InetAddress) : Prop := a.addr.sin_family = AF_INET ∧ a.addr.sin_zero = 0

instance (a : InetAddress) : Decidable a.IsInternet := inferInstanceAs (Decidable (_ ∧ _))

theorem isInternet_new (port : BitVec 16) (ip : List Char) : (new port ip).IsInternet := ⟨rfl, rfl⟩

/-- Whatever text an address was made from, the text it gives back makes the same address. -/
theorem new_toPort_toIp (a : InetAddress) (h : a.IsInternet) : new a.toPort a.toIp = a := by
  obtain ⟨⟨family, port, s_addr, zero⟩⟩ := a
  obtain ⟨rfl, rfl⟩ := h
  simp only [new, toPort, toIp, inetAddr_inetNtop, htons_ntohs]

/-- Two numbers make an address of four bytes. -/
theorem new_toPort_toIp_loopback :
    let a := new 8080 ['0', 'x', '7', 'f', '.', '1']
    a.toIp = ['1', '2', '7', '.', '0', '.', '0', '.', '1'] ∧ new a.toPort a.toIp = a :=
  ⟨by decide, new_toPort_toIp _ (isInternet_new ..)⟩

/-! ### The text -/

/-- With the NUL this is far less than the buffer. -/
theorem length_toIpPort_le (a : InetAddress) : a.toIpPort.length ≤ 21 := by
  have hip := length_inetNtop_le a.addr.s_addr
  have hport : (Nat.toDigits 10 (ntohs a.addr.sin_port).toNat).length ≤ 5 := by
    rw [Nat.length_toDigits_le_iff (by decide) (by decide)]
    have := (ntohs a.addr.sin_port).isLt
    omega
  simp only [toIpPort, List.length_append, List.length_cons]
  omega

theorem not_mem_toDigits {c : Char} (hc : c.isDigit = false) (m : ℕ) : c ∉ Nat.toDigits 10 m := by
  intro hmem
  rw [Nat.isDigit_of_mem_toDigits (by decide) (by decide) hmem] at hc
  cases hc

theorem toIpPort_eq_iff {a b : InetAddress} :
    a.toIpPort = b.toIpPort ↔ a.toIp = b.toIp ∧ a.toPort = b.toPort := by
  have hip : ':' ∉ inetNtop a.addr.s_addr := by
    intro hmem
    rcases mem_inetNtop hmem with hdot | hdigit
    · exact absurd hdot (by decide)
    · exact absurd hdigit (by decide)
  rw [toIpPort, toIpPort, List.append_cons_inj_of_notMem hip (not_mem_toDigits (by decide) _)]
  refine and_congr Iff.rfl ⟨?_, ?_⟩
  · rintro ⟨-, hport⟩
    exact BitVec.eq_of_toNat_eq (Server.toDigits_injective hport)
  · intro hport
    exact ⟨rfl, congrArg (fun port : BitVec 16 => Nat.toDigits 10 port.toNat) hport⟩

theorem hash_not_mem_toIpPort (a : InetAddress) : '#' ∉ a.toIpPort := by
  rw [toIpPort, List.mem_append, List.mem_cons, not_or, not_or]
  refine ⟨fun hmem => ?_, by decide, not_mem_toDigits (by decide) _⟩
  rcases mem_inetNtop hmem with hdot | hdigit
  · exact absurd hdot (by decide)
  · exact absurd hdigit (by decide)

end InetAddress

/-- The constructor of `TcpServer` keeps the text of `listenAddr`. -/
def ServerConfig.listenOn (config : ServerConfig) (listenAddr : InetAddress) : ServerConfig :=
  { config with
    ipPort := listenAddr.toIpPort
    ipPort_length := listenAddr.length_toIpPort_le }

namespace Server

theorem hash_not_mem_decimal (i : Int) : '#' ∉ decimal i := by
  cases i with
  | ofNat m => exact InetAddress.not_mem_toDigits (by decide) m
  | negSucc m =>
    rw [decimal, List.mem_cons, not_or]
    exact ⟨by decide, InetAddress.not_mem_toDigits (by decide) _⟩

theorem connName_listenOn (config : ServerConfig) (a : InetAddress) (id : BitVec 32) :
    (config.listenOn a).connName id
      = config.name ++ '-' :: (a.toIpPort ++ '#' :: decimal id.toInt) := by
  have hfits : ('-' :: a.toIpPort ++ '#' :: decimal id.toInt).length ≤ 63 := by
    have hport := a.length_toIpPort_le
    have hdecimal := decimal_length id
    simp only [List.length_append, List.length_cons]
    omega
  exact congrArg (config.name ++ ·) (List.take_of_length_le hfits)

theorem connName_listenOn_eq_iff {config config' : ServerConfig} (hname : config.name = config'.name)
    {a b : InetAddress} {i j : BitVec 32} :
    (config.listenOn a).connName i = (config'.listenOn b).connName j ↔
      a.toIp = b.toIp ∧ a.toPort = b.toPort ∧ i = j := by
  rw [connName_listenOn, connName_listenOn, hname, List.append_cancel_left_eq, List.cons_inj_right,
    List.append_cons_inj_of_notMem a.hash_not_mem_toIpPort (hash_not_mem_decimal _),
    InetAddress.toIpPort_eq_iff, and_assoc]
  refine and_congr Iff.rfl (and_congr Iff.rfl ⟨?_, ?_⟩)
  · rintro ⟨-, hid⟩
    exact BitVec.eq_of_toInt_eq (decimal_injective hid)
  · rintro rfl
    exact ⟨rfl, rfl⟩

/-! ### The names of all connections -/

variable {n : ℕ} {config : ServerConfig}

/-- Nobody has been accepted, and nobody renamed. -/
structure SameNames (w w' : Server n) : Prop where
  accepted : w'.accepted = w.accepted
  nextConnId : w'.nextConnId = w.nextConnId
  name : ∀ conn, (w'.conns conn).name = (w.conns conn).name

theorem SameNames.trans {u v w : Server n} (h : SameNames u v) (h' : SameNames v w) :
    SameNames u w :=
  ⟨h'.accepted.trans h.accepted, h'.nextConnId.trans h.nextConnId,
    fun conn => (h'.name conn).trans (h.name conn)⟩

theorem sameNames_of_rfl {w w' : Server n} (hconns : w'.conns = w.conns)
    (haccepted : w'.accepted = w.accepted) (hnext : w'.nextConnId = w.nextConnId) :
    SameNames w w' :=
  ⟨haccepted, hnext, fun conn => by rw [hconns]⟩

theorem sameNames_modifyLoop (w : Server n) (loop : Fin (n + 1)) (f : ServerLoop → ServerLoop) :
    SameNames w (w.modifyLoop loop f) := sameNames_of_rfl rfl rfl rfl

theorem sameNames_onConnection (w : Server n) (conn : Nat) (f : Session Nat → Session Nat) :
    SameNames w (w.onConnection conn f) := ⟨rfl, rfl, fun other => onConnection_name other⟩

theorem sameNames_removeConnection (w : Server n) (loop : Fin (n + 1)) (conn : Nat) :
    SameNames w (w.removeConnection loop conn) := by
  unfold removeConnection
  split <;> exact sameNames_of_rfl rfl rfl rfl

theorem sameNames_runFrame (w : Server n) (loop : Fin (n + 1)) (read : Except Errno (List Byte))
    (write : Except Errno Nat) (frame : Frame) : SameNames w (w.runFrame loop read write frame) := by
  cases frame with
  | handleClose conn => exact sameNames_onConnection w conn Session.handleClose
  | handleError conn => exact sameNames_onConnection w conn Session.handleError
  | handleRead conn => exact sameNames_onConnection w conn fun s => s.handleRead read
  | handleWrite conn => exact sameNames_onConnection w conn fun s => s.handleWrite write
  | removeConnection conn => exact sameNames_removeConnection w loop conn
  | userCode => exact sameNames_of_rfl rfl rfl rfl

theorem sameNames_callFunctor (file : Nat → List Byte) (w : Server n) (loop : Fin (n + 1))
    (write : Except Errno Nat) (functor : ServerFunctor) :
    SameNames w (w.callFunctor file loop write functor) := by
  cases functor with
  | connectEstablished conn => exact sameNames_onConnection w conn _
  | connectDestroyed conn => exact sameNames_onConnection w conn _
  | removeConnectionInLoop conn => exact sameNames_of_rfl rfl rfl rfl
  | user => exact sameNames_of_rfl rfl rfl rfl
  | task conn task =>
    cases task with
    | sendFileInLoop fileDescriptor offset count =>
      simp only [callFunctor]
      split
      · exact sameNames_onConnection w conn _
      · exact sameNames_of_rfl rfl rfl rfl
    | _ => exact sameNames_of_rfl rfl rfl rfl

/-- Only an event of the acceptor makes a new name. -/
theorem handleEvent_names (w : Server n) (loop : Fin (n + 1)) (accepted : Option Nat)
    (a : ActiveChannel) :
    SameNames w (w.handleEvent config loop accepted a) ∨
      ∃ sockfd, w.handleEvent config loop accepted a = w.newConnection config sockfd := by
  cases a with
  | connection conn revents =>
    refine .inl ?_
    simp only [handleEvent]
    split <;> exact sameNames_of_rfl rfl rfl rfl
  | acceptor =>
    cases accepted with
    | none => exact .inl (sameNames_of_rfl rfl rfl rfl)
    | some sockfd => exact .inr ⟨sockfd, rfl⟩
  | wakeup => exact .inl (sameNames_of_rfl rfl rfl rfl)

/-- The name of a connection is that of its place in the sequence of all connections. -/
structure InOrder (config : ServerConfig) (w : Server n) : Prop where
  name : ∀ conn < w.accepted, (w.conns conn).name = config.connName (BitVec.ofNat 32 (conn + 1))
  counter : w.nextConnId = BitVec.ofNat 32 (w.accepted + 1)

theorem InOrder.of_sameNames {w w' : Server n} (h : InOrder config w) (hsame : SameNames w w') :
    InOrder config w' := by
  refine ⟨?_, ?_⟩
  · intro conn hconn
    rw [hsame.accepted] at hconn
    rw [hsame.name, h.name conn hconn]
  · rw [hsame.nextConnId, hsame.accepted, h.counter]

theorem InOrder.newConnection {w : Server n} (h : InOrder config w) (sockfd : Nat) :
    InOrder config (w.newConnection config sockfd) := by
  refine ⟨?_, ?_⟩
  · intro conn hconn
    rw [newConnection_accepted] at hconn
    rw [newConnection_name]
    split
    · rename_i heq
      rw [heq, h.counter]
    · rename_i hne
      exact h.name conn (by omega)
  · rw [newConnection_nextConnId, newConnection_accepted, h.counter]
    exact (BitVec.ofNat_add (w.accepted + 1) 1).symm

theorem InOrder.move {file : Nat → List Byte} {w w' : Server n} {action : ServerAction n}
    (h : InOrder config w) (hmove : w.move file config action = some w') : InOrder config w' := by
  cases action with
  | poll loop active =>
    obtain ⟨-, rfl⟩ := guarded_eq_some.mp hmove
    exact h.of_sameNames (sameNames_modifyLoop w loop _)
  | dispatch loop accepted =>
    obtain ⟨a, rest, -, -, rfl⟩ := move_dispatch hmove
    have hpopped := h.of_sameNames (sameNames_modifyLoop w loop
      fun l => { l with activeChannels := rest })
    rcases handleEvent_names _ loop accepted a with hsame | ⟨sockfd, hnew⟩
    · exact hpopped.of_sameNames hsame
    · rw [hnew]
      exact hpopped.newConnection sockfd
  | frame loop read write =>
    obtain ⟨frame, rest, -, rfl⟩ := move_frame hmove
    exact h.of_sameNames ((sameNames_modifyLoop w loop _).trans (sameNames_runFrame ..))
  | handled loop =>
    obtain ⟨-, rfl⟩ := guarded_eq_some.mp hmove
    exact h.of_sameNames (sameNames_modifyLoop w loop _)
  | doPendingFunctors loop =>
    obtain ⟨-, rfl⟩ := guarded_eq_some.mp hmove
    exact h.of_sameNames (sameNames_modifyLoop w loop _)
  | runFunctor loop write =>
    obtain ⟨functor, rest, -, -, rfl⟩ := move_runFunctor hmove
    exact h.of_sameNames ((sameNames_modifyLoop w loop _).trans (sameNames_callFunctor ..))
  | endBatch loop =>
    obtain ⟨-, rfl⟩ := guarded_eq_some.mp hmove
    exact h.of_sameNames (sameNames_modifyLoop w loop _)
  | send loop conn data write =>
    obtain ⟨-, rfl⟩ := guarded_eq_some.mp hmove
    exact h.of_sameNames (sameNames_onConnection w conn _)
  | sendFile loop conn fileDescriptor offset count write =>
    obtain ⟨-, rfl⟩ := guarded_eq_some.mp hmove
    exact h.of_sameNames (sameNames_onConnection w conn _)
  | shutdown loop conn =>
    obtain ⟨-, rfl⟩ := guarded_eq_some.mp hmove
    exact h.of_sameNames (sameNames_onConnection w conn _)
  | queueInLoop loop =>
    obtain rfl := Option.some.inj hmove
    exact h.of_sameNames (sameNames_modifyLoop w loop _)
  | hold conn =>
    obtain ⟨-, rfl⟩ := guarded_eq_some.mp hmove
    exact h.of_sameNames (sameNames_of_rfl rfl rfl rfl)
  | drop conn =>
    obtain rfl := Option.some.inj hmove
    exact h.of_sameNames (sameNames_of_rfl rfl rfl rfl)

theorem inOrder_of_reachable {file : Nat → List Byte} {w : Server n}
    (hreach : (system file config).Reachable w) : InOrder config w := by
  refine hreach.invariant ?_ ?_
  · rintro w rfl
    exact ⟨fun conn hconn => absurd hconn (Nat.not_lt_zero conn), rfl⟩
  · intro w action w' h _ hstep
    obtain ⟨v, hmove, rfl⟩ := step_eq_some hstep
    exact (h.move hmove).of_sameNames (sameNames_of_rfl rfl rfl rfl)

/-- Two servers of one name give a connection the same name exactly if they listen on the same
address and the connections came in the same place, counted in 32 bits. -/
theorem same_name_iff {n' : ℕ} {file file' : Nat → List Byte} {config' : ServerConfig}
    {a b : InetAddress} {w : Server n} {w' : Server n'} {conn conn' : Nat}
    (hname : config.name = config'.name)
    (hreach : (system file (config.listenOn a)).Reachable w)
    (hreach' : (system file' (config'.listenOn b)).Reachable w')
    (hconn : conn < w.accepted) (hconn' : conn' < w'.accepted) :
    (w.conns conn).name = (w'.conns conn').name ↔
      a.toIp = b.toIp ∧ a.toPort = b.toPort ∧ conn % 2 ^ 32 = conn' % 2 ^ 32 := by
  rw [(inOrder_of_reachable hreach).name conn hconn,
    (inOrder_of_reachable hreach').name conn' hconn', connName_listenOn_eq_iff hname]
  refine and_congr Iff.rfl (and_congr Iff.rfl ?_)
  rw [← BitVec.toNat_inj, BitVec.toNat_ofNat, BitVec.toNat_ofNat]
  omega

/-- The first connections of two servers, on two ports of one host. -/
theorem same_name_iff_two_ports :
    ∃ (w : Server 0) (w' : Server 1),
      (system (fun _ => []) (echoServer.listenOn (InetAddress.new 8080 ['1', '2', '7', '.', '1']))).exec
        new [.poll 0 [.acceptor], .dispatch 0 (some 7)] = some w ∧
      (system (fun _ => []) (echoServer.listenOn (InetAddress.new 8081 ['1', '2', '7', '.', '1']))).exec
        new [.poll 0 [.acceptor], .dispatch 0 (some 7)] = some w' ∧
      (w.conns 0).name ≠ (w'.conns 0).name := by
  obtain ⟨w, hw, hone⟩ : ∃ w : Server 0,
      (system (fun _ => []) (echoServer.listenOn (InetAddress.new 8080 ['1', '2', '7', '.', '1']))).exec
        new [.poll 0 [.acceptor], .dispatch 0 (some 7)] = some w ∧ w.accepted = 1 := ⟨_, rfl, rfl⟩
  obtain ⟨w', hw', hone'⟩ : ∃ w' : Server 1,
      (system (fun _ => []) (echoServer.listenOn (InetAddress.new 8081 ['1', '2', '7', '.', '1']))).exec
        new [.poll 0 [.acceptor], .dispatch 0 (some 7)] = some w' ∧ w'.accepted = 1 := ⟨_, rfl, rfl⟩
  refine ⟨w, w', hw, hw', fun heq => ?_⟩
  obtain ⟨-, hport, -⟩ := (same_name_iff rfl (System.reachable_of_exec rfl hw)
    (System.reachable_of_exec rfl hw') (by omega) (by omega)).mp heq
  exact absurd hport (by decide)

end Server

end MuduoCore

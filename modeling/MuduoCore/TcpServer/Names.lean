import MuduoCore.TcpServer.Handshake

/-!
# Names of connections

Runs of `newConnection` and `removeConnectionInLoop`, of any length and in any order, with
`connections_` and `nextConnId_`. The name of a connection says how many were accepted before it, but
only modulo `2 ^ 32`, so a connection that outlives a round of the counter meets its own name again.
-/

namespace MuduoCore.Server

variable {n : ℕ}

inductive MapAction where
  | newConnection (sockfd : Nat)
  | removeConnectionInLoop (conn : Nat)
  deriving DecidableEq, Repr

def MapAction.removed : MapAction → List Nat
  | newConnection _ => []
  | removeConnectionInLoop conn => [conn]

def mapStep (config : ServerConfig) (w : Server n) : MapAction → Option (Server n)
  | .newConnection sockfd => some (w.newConnection config sockfd)
  | .removeConnectionInLoop conn => guarded (conn < w.accepted) (w.removeConnectionInLoop conn)

/-- The second component lists the connections that were removed. -/
def naming (config : ServerConfig) : System (Server n × List Nat) MapAction :=
  System.recording { init := fun w => w = new, step := mapStep config }
    fun _ action _ => action.removed

/-- No other connection in `connections_` was accepted a number of whole rounds of the counter before
or after this one. -/
def Alone (w : Server n) (conn : Nat) : Prop :=
  ∀ other < w.accepted, w.Mapped other → other ≠ conn → other % 2 ^ 32 ≠ conn % 2 ^ 32

instance (w : Server n) (conn : Nat) : Decidable (w.Mapped conn) :=
  inferInstanceAs (Decidable (_ = some conn))

instance (w : Server n) (conn : Nat) : Decidable (w.Alone conn) :=
  inferInstanceAs (Decidable (∀ other < w.accepted, _))

/-- The connection that a step is about is alone. -/
def StaysDistinct (w : Server n) : MapAction → Prop
  | .newConnection _ => w.Alone w.accepted
  | .removeConnectionInLoop conn => w.Alone conn

instance (w : Server n) : (action : MapAction) → Decidable (w.StaysDistinct action)
  | .newConnection _ => inferInstanceAs (Decidable (w.Alone w.accepted))
  | .removeConnectionInLoop conn => inferInstanceAs (Decidable (w.Alone conn))

/-- `erase(conn->name())` takes out the entry of this connection, and leaves every other as it is. -/
def RemovesExactly (w : Server n) (conn : Nat) : Prop :=
  ∀ name, (w.removeConnectionInLoop conn).connections name
    = if w.connections name = some conn then none else w.connections name

/-- `connections_[connName] = conn` drops nobody. -/
def KeepsMapped (config : ServerConfig) (w : Server n) (sockfd : Nat) : Prop :=
  ∀ other < w.accepted, w.Mapped other → (w.newConnection config sockfd).Mapped other

/-! ### The two steps -/

section Steps

variable (config : ServerConfig) (w : Server n) (sockfd conn : Nat)

theorem newConnection_connections :
    (w.newConnection config sockfd).connections
      = Function.update w.connections (config.connName w.nextConnId) (some w.accepted) := by
  unfold newConnection
  simp only
  split <;> rfl

theorem newConnection_accepted : (w.newConnection config sockfd).accepted = w.accepted + 1 := by
  unfold newConnection
  simp only
  split <;> rfl

theorem newConnection_nextConnId :
    (w.newConnection config sockfd).nextConnId = w.nextConnId + 1 := by
  unfold newConnection
  simp only
  split <;> rfl

theorem newConnection_name (other : Nat) :
    ((w.newConnection config sockfd).conns other).name
      = if other = w.accepted then config.connName w.nextConnId else (w.conns other).name := by
  have hinsert : ((w.insertConnection config sockfd).conns other).name
      = if other = w.accepted then config.connName w.nextConnId else (w.conns other).name := by
    split
    · rename_i heq
      rw [heq, insertConnection_conns_self]
    · rename_i hne
      rw [insertConnection_conns_of_ne config sockfd hne]
  unfold newConnection
  simp only
  split
  · rw [onConnection_name, hinsert]
  · exact hinsert

theorem removeConnectionInLoop_connections :
    (w.removeConnectionInLoop conn).connections
      = Function.update w.connections (w.conns conn).name none := rfl

end Steps

/-! ### Names and the counter -/

/-- The name of a connection is that of its place in the sequence of all connections. -/
structure Numbered (config : ServerConfig) (w : Server n) : Prop where
  name : ∀ conn < w.accepted, (w.conns conn).name = config.connName (BitVec.ofNat 32 (conn + 1))
  counter : w.nextConnId = BitVec.ofNat 32 (w.accepted + 1)
  named : w.Named

variable {config : ServerConfig} {w : Server n} {sockfd conn other : Nat}

theorem numbered_new : Numbered config (new : Server n) where
  name conn hconn := absurd hconn (Nat.not_lt_zero conn)
  counter := rfl
  named name conn hentry := by cases hentry

theorem Numbered.newConnection (h : Numbered config w) (sockfd : Nat) :
    Numbered config (w.newConnection config sockfd) := by
  refine ⟨?_, ?_, ?_⟩
  · intro c hc
    rw [newConnection_accepted] at hc
    rw [newConnection_name]
    split
    · rename_i heq
      rw [heq, h.counter]
    · rename_i hne
      exact h.name c (by omega)
  · rw [newConnection_nextConnId, newConnection_accepted, h.counter]
    exact (BitVec.ofNat_add (w.accepted + 1) 1).symm
  · intro name c hentry
    rw [newConnection_connections] at hentry
    rw [newConnection_accepted, newConnection_name]
    by_cases hname : name = config.connName w.nextConnId
    · rw [hname, Function.update_self] at hentry
      rw [if_pos (Option.some.inj hentry).symm, hname, ← Option.some.inj hentry]
      exact ⟨Nat.lt_succ_self _, rfl⟩
    · rw [Function.update_of_ne hname] at hentry
      obtain ⟨hlt, heq⟩ := h.named name c hentry
      rw [if_neg (Nat.ne_of_lt hlt)]
      exact ⟨Nat.lt_succ_of_lt hlt, heq⟩

theorem Numbered.removeConnectionInLoop (h : Numbered config w) (conn : Nat) :
    Numbered config (w.removeConnectionInLoop conn) := by
  refine ⟨h.name, h.counter, ?_⟩
  intro name c hentry
  rw [removeConnectionInLoop_connections] at hentry
  by_cases hname : name = (w.conns conn).name
  · rw [hname, Function.update_self] at hentry
    cases hentry
  · rw [Function.update_of_ne hname] at hentry
    exact h.named name c hentry

theorem Numbered.name_eq_iff (h : Numbered config w) (hconn : conn < w.accepted)
    (hother : other < w.accepted) :
    (w.conns other).name = (w.conns conn).name ↔ other % 2 ^ 32 = conn % 2 ^ 32 := by
  rw [h.name other hother, h.name conn hconn, connName_eq_iff]

theorem Numbered.name_eq_next_iff (h : Numbered config w) (hother : other < w.accepted) :
    (w.conns other).name = config.connName w.nextConnId ↔
      other % 2 ^ 32 = w.accepted % 2 ^ 32 := by
  rw [h.name other hother, h.counter, connName_eq_iff]

/-! ### Who stays in the map -/

theorem mapped_newConnection_self : (w.newConnection config sockfd).Mapped w.accepted := by
  rw [Mapped, newConnection_connections, newConnection_name, if_pos rfl, Function.update_self]

theorem Numbered.mapped_newConnection (h : Numbered config w) (hother : other < w.accepted) :
    (w.newConnection config sockfd).Mapped other ↔
      w.Mapped other ∧ other % 2 ^ 32 ≠ w.accepted % 2 ^ 32 := by
  rw [Mapped, newConnection_connections, newConnection_name, if_neg (Nat.ne_of_lt hother), Ne,
    ← h.name_eq_next_iff hother]
  by_cases hname : (w.conns other).name = config.connName w.nextConnId
  · rw [hname, Function.update_self]
    constructor
    · intro heq
      exact absurd (Option.some.inj heq) (Nat.ne_of_gt hother)
    · rintro ⟨-, hne⟩
      exact absurd rfl hne
  · rw [Function.update_of_ne hname]
    exact (and_iff_left hname).symm

theorem Numbered.mapped_removeConnectionInLoop (h : Numbered config w) (hconn : conn < w.accepted)
    (hother : other < w.accepted) :
    (w.removeConnectionInLoop conn).Mapped other ↔
      w.Mapped other ∧ other % 2 ^ 32 ≠ conn % 2 ^ 32 := by
  rw [Mapped, removeConnectionInLoop_connections, Ne, ← h.name_eq_iff hconn hother]
  change Function.update w.connections (w.conns conn).name none (w.conns other).name = some other ↔ _
  by_cases hname : (w.conns other).name = (w.conns conn).name
  · rw [hname, Function.update_self]
    constructor
    · intro heq
      cases heq
    · rintro ⟨-, hne⟩
      exact absurd rfl hne
  · rw [Function.update_of_ne hname]
    exact (and_iff_left hname).symm

/-! ### When a step is right -/

/-- The next name is a key of `connections_` exactly if a connection of the same place in the round
is still there. -/
theorem Numbered.next_free_iff (h : Numbered config w) :
    w.connections (config.connName w.nextConnId) = none ↔ w.Alone w.accepted := by
  constructor
  · intro hfree other hother hmapped _ hmod
    rw [Mapped, (h.name_eq_next_iff hother).mpr hmod, hfree] at hmapped
    cases hmapped
  · intro halone
    by_contra htaken
    obtain ⟨other, hentry⟩ := Option.ne_none_iff_exists'.mp htaken
    obtain ⟨hother, hname⟩ := h.named _ other hentry
    apply halone other hother _ (Nat.ne_of_lt hother) ((h.name_eq_next_iff hother).mp hname)
    rw [Mapped, hname, hentry]

theorem Numbered.keepsMapped_iff (h : Numbered config w) :
    w.KeepsMapped config sockfd ↔ w.Alone w.accepted := by
  constructor
  · intro hkeeps other hother hmapped _
    exact ((h.mapped_newConnection hother).mp (hkeeps other hother hmapped)).2
  · intro halone other hother hmapped
    rw [h.mapped_newConnection hother]
    exact ⟨hmapped, halone other hother hmapped (Nat.ne_of_lt hother)⟩

theorem Numbered.removesExactly_iff (h : Numbered config w) (hconn : conn < w.accepted) :
    w.RemovesExactly conn ↔ w.Alone conn := by
  constructor
  · intro hexact other hother hmapped hne hmod
    have hentry := hexact (w.conns other).name
    have hname := (h.name_eq_iff hconn hother).mpr hmod
    rw [removeConnectionInLoop_connections, show w.connections (w.conns other).name = some other
      from hmapped, if_neg (fun heq => hne (Option.some.inj heq)), hname,
      Function.update_self] at hentry
    cases hentry
  · intro halone name
    rw [removeConnectionInLoop_connections]
    by_cases hname : name = (w.conns conn).name
    · rw [hname, Function.update_self]
      split
      · rfl
      · rename_i hnot
        by_contra htaken
        obtain ⟨other, hentry⟩ := Option.ne_none_iff_exists'.mp (Ne.symm htaken)
        obtain ⟨hother, heq⟩ := h.named _ other hentry
        apply halone other hother
        · rw [Mapped, heq, hentry]
        · rintro rfl
          exact hnot hentry
        · exact (h.name_eq_iff hconn hother).mp heq
    · rw [Function.update_of_ne hname, if_neg]
      intro hentry
      exact hname (h.named name conn hentry).2.symm

/-! ### Runs -/

theorem mapStep_numbered {w' : Server n} {action : MapAction} (h : Numbered config w)
    (hstep : w.mapStep config action = some w') : Numbered config w' := by
  cases action with
  | newConnection sockfd =>
      obtain rfl := Option.some.inj hstep
      exact h.newConnection sockfd
  | removeConnectionInLoop conn =>
      obtain ⟨-, rfl⟩ := guarded_eq_some.mp hstep
      exact h.removeConnectionInLoop conn

theorem numbered_of_reachable {v : Server n × List Nat} (hreach : (naming config).Reachable v) :
    Numbered config v.1 := by
  apply hreach.invariant
  · intro u hu
    rw [hu.1]
    exact numbered_new
  · intro u action u' hu _ hstep
    exact mapStep_numbered hu (System.recording_step hstep).1

/-- Every connection that was not removed is in the map, and no other. -/
structure Complete (config : ServerConfig) (v : Server n × List Nat) : Prop where
  numbered : Numbered config v.1
  removed : ∀ conn ∈ v.2, conn < v.1.accepted
  mapped : ∀ conn < v.1.accepted, v.1.Mapped conn ↔ conn ∉ v.2

theorem Complete.step {v v' : Server n × List Nat} {action : MapAction} (h : Complete config v)
    (hdistinct : v.1.StaysDistinct action) (hstep : (naming config).step v action = some v') :
    Complete config v' := by
  obtain ⟨hmap, hpast⟩ := System.recording_step hstep
  have hnumbered := mapStep_numbered h.numbered hmap
  cases action with
  | newConnection sockfd =>
      have hnext : v'.1 = v.1.newConnection config sockfd := (Option.some.inj hmap).symm
      have hlater : v'.2 = v.2 := by rw [hpast, MapAction.removed, List.append_nil]
      refine ⟨hnumbered, ?_, ?_⟩
      · intro c hc
        rw [hlater] at hc
        rw [hnext, newConnection_accepted]
        exact Nat.lt_succ_of_lt (h.removed c hc)
      · intro c hc
        rw [hnext, newConnection_accepted] at hc
        rw [hnext, hlater]
        rcases Nat.lt_succ_iff_lt_or_eq.mp hc with hold | rfl
        · rw [h.numbered.mapped_newConnection hold, ← h.mapped c hold]
          exact and_iff_left_of_imp fun hmapped =>
            hdistinct c hold hmapped (Nat.ne_of_lt hold)
        · exact iff_of_true mapped_newConnection_self fun hmem =>
            Nat.lt_irrefl _ (h.removed _ hmem)
  | removeConnectionInLoop conn =>
      obtain ⟨hconn, hnext⟩ := guarded_eq_some.mp hmap
      have hlater : v'.2 = v.2 ++ [conn] := hpast
      refine ⟨hnumbered, ?_, ?_⟩
      · intro c hc
        rw [hlater, List.mem_append, List.mem_singleton] at hc
        rw [← hnext]
        rcases hc with hold | rfl
        · exact h.removed c hold
        · exact hconn
      · intro c hc
        rw [← hnext] at hc ⊢
        rw [h.numbered.mapped_removeConnectionInLoop hconn hc, h.mapped c hc, hlater,
          List.mem_append, List.mem_singleton, not_or]
        constructor
        · rintro ⟨hstays, hmod⟩
          exact ⟨hstays, fun heq => hmod (by rw [heq])⟩
        · rintro ⟨hstays, hne⟩
          exact ⟨hstays, hdistinct c hc ((h.mapped c hc).mpr hstays) hne⟩

theorem complete_of_reachable {v : Server n × List Nat}
    (hreach : (naming config).ReachableUnder (fun v action => v.1.StaysDistinct action) v) :
    Complete config v := by
  apply hreach.invariant
  · rintro u ⟨hu, hpast⟩
    refine ⟨?_, ?_, ?_⟩
    · rw [hu]
      exact numbered_new
    · intro c hc
      rw [hpast] at hc
      cases hc
    · intro c hc
      rw [hu] at hc
      exact absurd hc (Nat.not_lt_zero c)
  · intro u action u' hu hok hstep
    exact hu.step hok hstep

/-- The names do their work as long as no step is about a connection that shares its place in the
round of `nextConnId_` with another one in the map. -/
theorem names_distinct_iff_alone {v : Server n × List Nat}
    (hreach : (naming config).Reachable v) :
    (v.1.connections (config.connName v.1.nextConnId) = none ↔ v.1.Alone v.1.accepted) ∧
    (∀ sockfd, v.1.KeepsMapped config sockfd ↔ v.1.Alone v.1.accepted) ∧
    (∀ conn < v.1.accepted, v.1.RemovesExactly conn ↔ v.1.Alone conn) ∧
    ((naming config).ReachableUnder (fun v action => v.1.StaysDistinct action) v →
      ∀ conn < v.1.accepted, v.1.Mapped conn ↔ conn ∉ v.2) := by
  have hnumbered := numbered_of_reachable hreach
  refine ⟨hnumbered.next_free_iff, fun sockfd => hnumbered.keepsMapped_iff, ?_, ?_⟩
  · intro conn hconn
    exact hnumbered.removesExactly_iff hconn
  · intro hunder
    exact (complete_of_reachable hunder).mapped

/-- Two connections come, the first goes. -/
theorem names_distinct_iff_alone_reconnect :
    ∃ v : Server 1 × List Nat,
      (naming echoServer).exec (new, [])
        [.newConnection 7, .newConnection 8, .removeConnectionInLoop 0] = some v ∧
      v.1.connections (echoServer.connName v.1.nextConnId) = none ∧
      v.1.RemovesExactly 1 ∧ ¬v.1.Mapped 0 ∧ v.1.Mapped 1 := by
  obtain ⟨v, hv, hunder, hlen, hpast, halone, hone⟩ : ∃ v : Server 1 × List Nat,
      (naming echoServer).exec (new, [])
        [.newConnection 7, .newConnection 8, .removeConnectionInLoop 0] = some v ∧
      (naming echoServer).execUnder (fun v action => v.1.StaysDistinct action) (new, [])
        [.newConnection 7, .newConnection 8, .removeConnectionInLoop 0] = some v ∧
      v.1.accepted = 2 ∧ v.2 = [0] ∧ v.1.Alone v.1.accepted ∧ v.1.Alone 1 :=
    ⟨_, rfl, rfl, rfl, rfl, by decide, by decide⟩
  have hreach : (naming echoServer).Reachable v := System.reachable_of_exec ⟨rfl, rfl⟩ hv
  obtain ⟨hfree, -, hexact, hmapped⟩ := names_distinct_iff_alone hreach
  have hpresent := hmapped (System.reachableUnder_of_execUnder ⟨rfl, rfl⟩ hunder)
  rw [hlen, hpast] at hpresent
  rw [hlen] at hexact
  refine ⟨v, hv, hfree.mpr halone, (hexact 1 (by omega)).mpr hone, ?_, ?_⟩
  · rw [hpresent 0 (by omega)]
    decide
  · rw [hpresent 1 (by omega)]
    decide

/-- Connections come and go, and the first of all stays. -/
theorem first_stays (config : ServerConfig) (sockfd k : Nat) (hk : k < 2 ^ 32) :
    ∃ v : Server n × List Nat, (naming config).Reachable v ∧ v.1.accepted = k + 1 ∧
      v.1.Mapped 0 ∧ 0 ∉ v.2 := by
  induction k with
  | zero =>
      have hexec : (naming config).exec (new, []) [.newConnection sockfd]
          = some ((new : Server n).newConnection config sockfd, []) := rfl
      refine ⟨_, System.reachable_of_exec ⟨rfl, rfl⟩ hexec, newConnection_accepted ..,
        mapped_newConnection_self, ?_⟩
      exact List.not_mem_nil
  | succ k ih =>
      obtain ⟨v, hreach, hlen, hmapped, hpast⟩ := ih (by omega)
      have hnumbered := numbered_of_reachable hreach
      -- the next connection has another name, and so its removal leaves the first one alone
      let next := v.1.newConnection config sockfd
      have hnext : (naming config).step v (.newConnection sockfd) = some (next, v.2 ++ []) :=
        System.recording_some rfl v.2
      have hlen' : next.accepted = k + 2 := by
        rw [newConnection_accepted, hlen]
      have hremove : (naming config).step (next, v.2 ++ []) (.removeConnectionInLoop (k + 1))
          = some (next.removeConnectionInLoop (k + 1), v.2 ++ [] ++ [k + 1]) := by
        apply System.recording_some
        exact guarded_eq_some.mpr ⟨by omega, rfl⟩
      refine ⟨_, (hreach.step trivial hnext).step trivial hremove, hlen', ?_, ?_⟩
      · have hstays : next.Mapped 0 := by
          rw [hnumbered.mapped_newConnection (by omega), hlen]
          exact ⟨hmapped, by omega⟩
        rw [(hnumbered.newConnection sockfd).mapped_removeConnectionInLoop
          (Nat.lt_of_lt_of_eq (by omega) hlen'.symm) (Nat.lt_of_lt_of_eq (by omega) hlen'.symm)]
        exact ⟨hstays, by omega⟩
      · simp only [List.append_nil, List.mem_append, List.mem_singleton, not_or]
        exact ⟨hpast, by omega⟩

/-- After `2 ^ 32` connections the counter is back at the first one, which is still there: the next
connection takes its name and its entry, and its removal takes the entry of the next one. -/
theorem name_comes_round :
    ∃ v : Server 1 × List Nat, (naming echoServer).Reachable v ∧ v.1.Mapped 0 ∧ 0 ∉ v.2 ∧
      v.1.connections (echoServer.connName v.1.nextConnId) ≠ none ∧
      ¬v.1.KeepsMapped echoServer 7 ∧ ¬(v.1.newConnection echoServer 7).RemovesExactly 0 := by
  obtain ⟨v, hreach, hlen, hmapped, hpast⟩ :=
    first_stays (n := 1) echoServer 7 (2 ^ 32 - 1) (by omega)
  have hnumbered := numbered_of_reachable hreach
  have hshared : ¬v.1.Alone v.1.accepted := by
    intro halone
    apply halone 0 (by omega) hmapped (by omega)
    omega
  refine ⟨v, hreach, hmapped, hpast, ?_, ?_, ?_⟩
  · rw [Ne, hnumbered.next_free_iff]
    exact hshared
  · rw [hnumbered.keepsMapped_iff]
    exact hshared
  · rw [(hnumbered.newConnection 7).removesExactly_iff (by rw [newConnection_accepted]; omega)]
    intro halone
    apply halone v.1.accepted (by rw [newConnection_accepted]; omega) mapped_newConnection_self
      (by omega)
    omega

end MuduoCore.Server

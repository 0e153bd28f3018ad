import CyberAccountant.Library.Transition
import Mathlib.Data.List.Nodup

/-! The pool of database connections.  Each section under its mutex is one step; a connect runs outside
the mutex, between the step that reserves its slot and the step that ends it.  Connections go in and out
through `PooledConnection` objects, which may be moved, and break at any time. -/

namespace CyberAccountant.Database

open CyberAccountant.Library

abbrev Conn := Nat

abbrev Thread := Nat

def sizeModulus : Nat := 18446744073709551616

/-- `++n` of a `std::size_t`. -/
def increment (n : Nat) : Nat := if n + 1 = sizeModulus then 0 else n + 1

/-- `--n` of a `std::size_t`. -/
def decrement (n : Nat) : Nat := if n = 0 then sizeModulus - 1 else n - 1

/-- Its two pointers: `conn`, and whether `pool` is one. -/
structure PooledConnection where
  conn : Option Conn
  pool : Bool
  deriving DecidableEq

/-- What the move constructor leaves behind. -/
def PooledConnection.movedFrom : PooledConnection := ⟨none, false⟩

structure ConnectionPool where
  /-- `available_connections_`, the front first. -/
  available : List Conn
  /-- `active_connections_`. -/
  active : Nat
  /-- The threads that have reserved a slot and are connecting. -/
  opening : List Thread
  /-- The `PooledConnection` objects alive. -/
  handles : List PooledConnection
  closed : List Conn
  /-- The next connection that the driver opens. -/
  fresh : Conn

namespace ConnectionPool

def held (p : ConnectionPool) : List Conn := p.handles.filterMap PooledConnection.conn

/-- What `acquire` waits for. -/
def canProceed (size : Nat) (p : ConnectionPool) : Prop :=
  p.available ≠ [] ∨ (p.available.length + p.active) % sizeModulus < size

/-- `acquire` with a queued connection. -/
def take (p : ConnectionPool) (c : Conn) (rest : List Conn) : ConnectionPool :=
  { p with
    available := rest
    active := increment p.active
    handles := p.handles ++ [⟨some c, true⟩] }

/-- `acquire` without one: the slot is reserved. -/
def reserve (p : ConnectionPool) (t : Thread) : ConnectionPool :=
  { p with
    active := increment p.active
    opening := t :: p.opening }

def connected (p : ConnectionPool) (t : Thread) : ConnectionPool :=
  { p with
    opening := p.opening.erase t
    handles := p.handles ++ [⟨some p.fresh, true⟩]
    fresh := p.fresh + 1 }

/-- The connect of `t` has thrown: the slot is given back. -/
def connectFailed (p : ConnectionPool) (t : Thread) : ConnectionPool :=
  { p with
    active := decrement p.active
    opening := p.opening.erase t }

/-- `release`: a connection that is open is queued, any other is dropped. -/
def release (p : ConnectionPool) (conn : Option Conn) : ConnectionPool :=
  { p with
    available := p.available ++ (conn.filter (· ∉ p.closed)).toList
    active := decrement p.active }

/-- The destructor of a `PooledConnection`. -/
def destroy (p : ConnectionPool) (h : PooledConnection) : ConnectionPool :=
  if h.conn.isSome && h.pool then p.release h.conn else p

/-- The pool as its constructor leaves it. -/
def start (size : Nat) : ConnectionPool where
  available := List.range size
  active := 0
  opening := []
  handles := []
  closed := []
  fresh := size

end ConnectionPool

open ConnectionPool

inductive PoolStep (size : Nat) : ConnectionPool → ConnectionPool → Prop where
  | take (p : ConnectionPool) (c : Conn) (rest : List Conn) (hQueued : p.available = c :: rest) :
      PoolStep size p (p.take c rest)
  | reserve (p : ConnectionPool) (t : Thread) (hThread : t ∉ p.opening) (hEmpty : p.available = [])
      (hProceed : p.canProceed size) : PoolStep size p (p.reserve t)
  | connected (p : ConnectionPool) (t : Thread) (hOpening : t ∈ p.opening) :
      PoolStep size p (p.connected t)
  | connectFailed (p : ConnectionPool) (t : Thread) (hOpening : t ∈ p.opening) :
      PoolStep size p (p.connectFailed t)
  | timeout (p : ConnectionPool) (hWait : ¬p.canProceed size) : PoolStep size p p
  | move (p : ConnectionPool) (before after : List PooledConnection) (h : PooledConnection)
      (hAlive : p.handles = before ++ h :: after) :
      PoolStep size p { p with handles := before ++ .movedFrom :: after ++ [h] }
  | destroy (p : ConnectionPool) (before after : List PooledConnection) (h : PooledConnection)
      (hAlive : p.handles = before ++ h :: after) :
      PoolStep size p ({ p with handles := before ++ after }.destroy h)
  | close (p : ConnectionPool) (c : Conn) : PoolStep size p { p with closed := c :: p.closed }

/-! ### The invariant -/

structure PoolOk (size : Nat) (p : ConnectionPool) : Prop where
  capacity : p.available.length + p.active ≤ size
  balance : p.active = p.held.length + p.opening.length
  once : (p.available ++ p.held).Nodup
  known : ∀ c ∈ p.available ++ p.held, c < p.fresh
  pool : ∀ h ∈ p.handles, h.conn.isSome = true → h.pool = true

section Invariant

variable {size : Nat} {p : ConnectionPool}

theorem increment_eq {n : Nat} (h : n < size) (hSize : size < sizeModulus) : increment n = n + 1 :=
  if_neg (by omega)

theorem decrement_eq {n : Nat} (h : 0 < n) : decrement n = n - 1 :=
  if_neg (by omega)

theorem poolOk_start (size : Nat) : PoolOk size (start size) := by
  constructor <;> simp [start, held, List.nodup_range]

theorem PoolOk.take (hOk : PoolOk size p) (hSize : size < sizeModulus) {c : Conn} {rest : List Conn}
    (hQueued : p.available = c :: rest) : PoolOk size (p.take c rest) := by
  have hCapacity := hOk.capacity
  have hBalance := hOk.balance
  have hOnce := hOk.once
  have hKnown := hOk.known
  rw [hQueued] at hCapacity hOnce hKnown
  rw [List.length_cons] at hCapacity
  have hActive : increment p.active = p.active + 1 := increment_eq (by omega) hSize
  have hHeld : (p.take c rest).held = p.held ++ [c] := by simp [ConnectionPool.take, held]
  have hPerm : (c :: rest ++ p.held).Perm (rest ++ (p.held ++ [c])) := by
    rw [← List.append_assoc]
    exact (List.perm_append_singleton c (rest ++ p.held)).symm
  constructor
  case capacity =>
    show rest.length + increment p.active ≤ size
    omega
  case balance =>
    rw [hHeld]
    show increment p.active = (p.held ++ [c]).length + p.opening.length
    simp
    omega
  case once =>
    rw [hHeld]
    exact hPerm.nodup_iff.mp hOnce
  case known =>
    rw [hHeld]
    exact fun x hx => hKnown x (hPerm.mem_iff.mpr hx)
  case pool =>
    intro h hh
    simp only [ConnectionPool.take, List.mem_append, List.mem_singleton] at hh
    rcases hh with hh | rfl
    · exact hOk.pool h hh
    · exact fun _ => rfl

theorem PoolOk.reserve (hOk : PoolOk size p) (hSize : size < sizeModulus) (t : Thread)
    (hEmpty : p.available = []) (hProceed : p.canProceed size) : PoolOk size (p.reserve t) := by
  have hCapacity := hOk.capacity
  have hBalance := hOk.balance
  have hRoom : p.active < size := by
    rcases hProceed with hQueued | hRoom
    · exact absurd hEmpty hQueued
    · rw [Nat.mod_eq_of_lt (by omega)] at hRoom
      omega
  have hActive : increment p.active = p.active + 1 := increment_eq hRoom hSize
  constructor
  case capacity =>
    show p.available.length + increment p.active ≤ size
    simp [hEmpty]
    omega
  case balance =>
    show increment p.active = p.held.length + (p.opening.length + 1)
    omega
  case once => exact hOk.once
  case known => exact hOk.known
  case pool => exact hOk.pool

theorem PoolOk.slot (hOk : PoolOk size p) {t : Thread} (hOpening : t ∈ p.opening) :
    0 < p.active ∧ (p.opening.erase t).length + 1 = p.opening.length := by
  have hBalance := hOk.balance
  have hPos : 0 < p.opening.length := List.length_pos_of_mem hOpening
  have hErase := List.length_erase_of_mem hOpening
  omega

theorem PoolOk.connected (hOk : PoolOk size p) {t : Thread} (hOpening : t ∈ p.opening) :
    PoolOk size (p.connected t) := by
  have hBalance := hOk.balance
  obtain ⟨-, hErase⟩ := hOk.slot hOpening
  have hHeld : (p.connected t).held = p.held ++ [p.fresh] := by
    simp [ConnectionPool.connected, held]
  constructor
  case capacity => exact hOk.capacity
  case balance =>
    rw [hHeld]
    show p.active = (p.held ++ [p.fresh]).length + (p.opening.erase t).length
    simp
    omega
  case once =>
    rw [hHeld]
    show (p.available ++ (p.held ++ [p.fresh])).Nodup
    rw [← List.append_assoc]
    apply hOk.once.append (List.nodup_singleton _)
    intro c hc hFresh
    rw [List.mem_singleton] at hFresh
    exact Nat.lt_irrefl c (hFresh ▸ hOk.known c hc)
  case known =>
    rw [hHeld]
    show ∀ c ∈ p.available ++ (p.held ++ [p.fresh]), c < p.fresh + 1
    intro c hc
    rw [← List.append_assoc, List.mem_append, List.mem_singleton] at hc
    rcases hc with hc | rfl
    · exact Nat.lt_succ_of_lt (hOk.known c hc)
    · exact Nat.lt_succ_self p.fresh
  case pool =>
    intro h hh
    simp only [ConnectionPool.connected, List.mem_append, List.mem_singleton] at hh
    rcases hh with hh | rfl
    · exact hOk.pool h hh
    · exact fun _ => rfl

theorem PoolOk.connectFailed (hOk : PoolOk size p) {t : Thread}
    (hOpening : t ∈ p.opening) : PoolOk size (p.connectFailed t) := by
  have hCapacity := hOk.capacity
  have hBalance := hOk.balance
  obtain ⟨hPos, hErase⟩ := hOk.slot hOpening
  have hActive : decrement p.active = p.active - 1 := decrement_eq hPos
  constructor
  case capacity =>
    show p.available.length + decrement p.active ≤ size
    omega
  case balance =>
    show decrement p.active = p.held.length + (p.opening.erase t).length
    omega
  case once => exact hOk.once
  case known => exact hOk.known
  case pool => exact hOk.pool

variable {before after : List PooledConnection} {h : PooledConnection}

theorem held_perm (hAlive : p.handles = before ++ h :: after) :
    p.held.Perm (h.conn.toList ++ (before ++ after).filterMap PooledConnection.conn) := by
  have hSplit : p.held =
      before.filterMap PooledConnection.conn ++ (h.conn.toList ++ after.filterMap PooledConnection.conn) := by
    rw [held, hAlive, List.filterMap_append]
    cases hConn : h.conn <;> simp [hConn]
  rw [hSplit, List.filterMap_append, ← List.append_assoc, ← List.append_assoc]
  exact List.perm_append_comm.append_right _

theorem PoolOk.move (hOk : PoolOk size p) (hAlive : p.handles = before ++ h :: after) :
    PoolOk size { p with handles := before ++ .movedFrom :: after ++ [h] } := by
  have hHeld : p.held.Perm (ConnectionPool.held
      { p with handles := before ++ .movedFrom :: after ++ [h] }) := by
    apply (held_perm hAlive).trans
    apply List.perm_append_comm.trans
    simp only [held, List.filterMap_append, List.filterMap_cons, PooledConnection.movedFrom]
    cases h.conn <;> simp
  have hPerm := hHeld.append_left p.available
  constructor
  case capacity => exact hOk.capacity
  case balance => exact hHeld.length_eq ▸ hOk.balance
  case once => exact hPerm.nodup_iff.mp hOk.once
  case known => exact fun c hc => hOk.known c (hPerm.mem_iff.mpr hc)
  case pool =>
    intro g hg
    have hPool := hOk.pool
    rw [hAlive] at hPool
    simp only [List.mem_append, List.mem_cons, List.not_mem_nil, or_false] at hg
    rcases hg with (hg | rfl | hg) | rfl
    · exact hPool g (List.mem_append_left _ hg)
    · exact fun hSome => nomatch hSome
    · exact hPool g (List.mem_append_right _ (List.mem_cons_of_mem _ hg))
    · exact hPool g (List.mem_append_right _ List.mem_cons_self)

theorem PoolOk.others (hOk : PoolOk size p) (hAlive : p.handles = before ++ h :: after) :
    ∀ g ∈ before ++ after, g.conn.isSome = true → g.pool = true := by
  intro g hg
  apply hOk.pool
  rw [hAlive]
  simp only [List.mem_append, List.mem_cons] at hg ⊢
  tauto

/-- An object that holds no connection goes without a trace. -/
theorem PoolOk.destroyEmpty (hOk : PoolOk size p) (hAlive : p.handles = before ++ h :: after)
    (hConn : h.conn = none) : PoolOk size ({ p with handles := before ++ after }.destroy h) := by
  have hHeld := held_perm hAlive
  rw [hConn] at hHeld
  have hPerm := hHeld.append_left p.available
  unfold ConnectionPool.destroy
  rw [hConn]
  constructor
  case capacity => exact hOk.capacity
  case balance => exact hHeld.length_eq ▸ hOk.balance
  case once => exact hPerm.nodup_iff.mp hOk.once
  case known => exact fun c hc => hOk.known c (hPerm.mem_iff.mpr hc)
  case pool => exact hOk.others hAlive

/-- An object that holds a connection gives back its slot, and the connection if that is open. -/
theorem PoolOk.destroyHolding (hOk : PoolOk size p) (hAlive : p.handles = before ++ h :: after)
    {c : Conn} (hConn : h.conn = some c) :
    PoolOk size ({ p with handles := before ++ after }.destroy h) := by
  have hHeld := held_perm hAlive
  rw [hConn] at hHeld
  have hLength := hHeld.length_eq
  simp only [Option.toList_some, List.singleton_append, List.length_cons] at hLength
  have hCapacity := hOk.capacity
  have hBalance := hOk.balance
  have hActive : decrement p.active = p.active - 1 := decrement_eq (by omega)
  have hSlot : h.pool = true := by
    apply hOk.pool h
    · rw [hAlive]
      exact List.mem_append_right _ List.mem_cons_self
    · simp [hConn]
  have hDestroy : { p with handles := before ++ after }.destroy h =
      { p with handles := before ++ after }.release (some c) := by
    simp [ConnectionPool.destroy, hConn, hSlot]
  have hQueued : ((some c).filter (· ∉ p.closed)).toList.Sublist [c] := by
    by_cases hOpen : c ∈ p.closed <;> simp [Option.filter, hOpen]
  -- the queue afterwards and what is still held are parts of what was queued or held
  have hSub : (p.available ++ ((some c).filter (· ∉ p.closed)).toList ++
      (before ++ after).filterMap PooledConnection.conn).Sublist
      (p.available ++ ([c] ++ (before ++ after).filterMap PooledConnection.conn)) := by
    rw [List.append_assoc]
    apply List.Sublist.append_left
    exact hQueued.append_right _
  have hPerm := hHeld.append_left p.available
  rw [hDestroy]
  constructor
  case capacity =>
    show (p.available ++ ((some c).filter (· ∉ p.closed)).toList).length + decrement p.active ≤ size
    have hOne : ((some c).filter (· ∉ p.closed)).toList.length ≤ 1 := hQueued.length_le
    rw [List.length_append]
    omega
  case balance =>
    show decrement p.active =
      ((before ++ after).filterMap PooledConnection.conn).length + p.opening.length
    omega
  case once => exact (hPerm.nodup_iff.mp hOk.once).sublist hSub
  case known => exact fun x hx => hOk.known x (hPerm.mem_iff.mpr (hSub.subset hx))
  case pool => exact hOk.others hAlive

theorem PoolOk.destroy (hOk : PoolOk size p) (hAlive : p.handles = before ++ h :: after) :
    PoolOk size ({ p with handles := before ++ after }.destroy h) := by
  cases hConn : h.conn with
  | none => exact hOk.destroyEmpty hAlive hConn
  | some c => exact hOk.destroyHolding hAlive hConn

theorem PoolOk.step (hSize : size < sizeModulus) (p p' : ConnectionPool) (hOk : PoolOk size p)
    (hStep : PoolStep size p p') : PoolOk size p' := by
  cases hStep with
  | take c rest hQueued => exact hOk.take hSize hQueued
  | reserve t hThread hEmpty hProceed => exact hOk.reserve hSize t hEmpty hProceed
  | connected t hOpening => exact hOk.connected hOpening
  | connectFailed t hOpening => exact hOk.connectFailed hOpening
  | timeout hWait => exact hOk
  | move before after h hAlive => exact hOk.move hAlive
  | destroy before after h hAlive => exact hOk.destroy hAlive
  | close c => exact ⟨hOk.capacity, hOk.balance, hOk.once, hOk.known, hOk.pool⟩

/-- While a slot is free, `acquire` need not wait. -/
theorem PoolOk.canProceed (hOk : PoolOk size p) (hSize : size < sizeModulus)
    (hFree : p.held.length + p.opening.length < size) : p.canProceed size := by
  have hBalance := hOk.balance
  by_cases hEmpty : p.available = []
  · right
    rw [hEmpty, List.length_nil, Nat.zero_add, Nat.mod_eq_of_lt (by omega)]
    omega
  · exact .inl hEmpty

end Invariant

/-- In every run the queued and the active connections are at most the size of the pool, the counter is
the number of connections held and of connects in progress, no connection is in two places, and `acquire`
waits only while all slots are taken. -/
theorem pool_keeps_capacity {size : Nat} (hSize : size < sizeModulus) {p : ConnectionPool}
    (hRun : Run (PoolStep size) (start size) p) :
    p.available.length + p.active ≤ size ∧
    p.active = p.held.length + p.opening.length ∧
    (p.available ++ p.held).Nodup ∧
    (p.held.length + p.opening.length < size → p.canProceed size) := by
  have hOk : PoolOk size p := hRun.invariant (PoolOk.step hSize) (poolOk_start size)
  exact ⟨hOk.capacity, hOk.balance, hOk.once, hOk.canProceed hSize⟩

/-- A pool of one: its connection breaks while it is held and is dropped, the next connect fails, and
the one after succeeds. -/
theorem pool_keeps_capacity_repaired : ∃ p : ConnectionPool, p.held = [1] ∧
    p.available.length + p.active ≤ 1 ∧
    p.active = p.held.length + p.opening.length ∧
    (p.available ++ p.held).Nodup ∧
    (p.held.length + p.opening.length < 1 → p.canProceed 1) := by
  have hTaken : Run (PoolStep 1) (start 1) ⟨[], 1, [], [⟨some 0, true⟩], [], 1⟩ :=
    .single (.take _ 0 [] rfl)
  have hBroken := hTaken.tail (.close _ 0)
  have hDropped := hBroken.tail (.destroy _ [] [] _ rfl)
  have hReserved := hDropped.tail (.reserve _ 7 (by decide) (by decide) (.inr (by decide)))
  have hFailed := hReserved.tail (.connectFailed _ 7 (by decide))
  have hAgain := hFailed.tail (.reserve _ 8 (by decide) (by decide) (.inr (by decide)))
  have hConnected := hAgain.tail (.connected _ 8 (by decide))
  exact ⟨_, by decide, pool_keeps_capacity (by decide) hConnected⟩

end CyberAccountant.Database

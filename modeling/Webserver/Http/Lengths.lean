import Webserver.Http.Session
import Webserver.Transfer

/-!
# Lengths on their way through the integer types

`readn` sums up what it has read as a `ssize_t` and returns it as a `size_t`, which
`handleRead` keeps as an `int`; `writen` compares the sum of what it has written with
the length of the string, narrowed to an `int`. So a large number of bytes may look
like an error to `handleRead`, and a small one like the whole string to `writen`.

* `Conn.readDecides_iff`, `Conn.writeDecides_iff`: when the decisions are right all
  the same.
-/

namespace Webserver

/-- Whether `readn` ends on an error or the end of file. -/
def endsBadly : List ReadResult → Bool
  | [] => false
  | .data _ :: reads => endsBadly reads
  | .eof :: _ => true
  | .eintr :: reads => endsBadly reads
  | .eagain :: _ => false
  | .fail :: _ => true

/-- The number of bytes that `readn` drains. -/
def drained : List ReadResult → ℕ
  | .data piece :: reads => piece.bytes.length + drained reads
  | .eintr :: reads => drained reads
  | _ => 0

/-- How many of `n` bytes a schedule takes. -/
def taken : List WriteResult → ℕ → ℕ
  | _, 0 => 0
  | [], n => n
  | .accept k :: writes, n => min (k + 1) n + taken writes (n - (k + 1))
  | .eintr :: writes, n => taken writes n
  | _ :: _, _ => 0

/-- Whether it refuses to take the rest of them. -/
def refuses : List WriteResult → ℕ → Bool
  | _, 0 => false
  | [], _ => false
  | .accept k :: writes, n => refuses writes (n - (k + 1))
  | .zero :: _, _ => true
  | .eintr :: writes, n => refuses writes n
  | .eagain :: _, _ => false
  | .fail :: _, _ => true

theorem readn_ret (reads : List ReadResult) (buffer : Bytes) (readSum : ℤ) :
    (readn reads buffer readSum).ret =
      toSizeT (if endsBadly reads then -1 else readSum + drained reads) := by
  fun_induction readn reads buffer readSum with
  | case2 buffer readSum piece reads ih =>
    rw [ih, endsBadly, drained, Int.natCast_add, Int.add_assoc]
  | case4 buffer readSum reads ih => exact ih
  | _ => simp [endsBadly, drained]

theorem writeLoop_length (writes : List WriteResult) (ptr : Bytes) :
    (writeLoop writes ptr).accepted.length = taken writes ptr.length ∧
      (writeLoop writes ptr).failed = refuses writes ptr.length := by
  induction writes generalizing ptr with
  | nil => cases ptr <;> exact ⟨rfl, rfl⟩
  | cons r writes ih =>
    rcases ptr with - | ⟨x, ptr⟩
    · cases r <;> exact ⟨rfl, rfl⟩
    · cases r with
      | accept k =>
        obtain ⟨hlen, hfailed⟩ := ih ((x :: ptr).drop (k + 1))
        rw [List.length_drop] at hlen hfailed
        refine ⟨?_, hfailed⟩
        rw [writeLoop, List.length_append, List.length_take, hlen]
        · rfl
        · exact List.cons_ne_nil x ptr
      | eintr => exact ih (x :: ptr)
      | zero | eagain | fail => exact ⟨rfl, rfl⟩

theorem taken_lt_of_refuses {writes : List WriteResult} {n : ℕ} (h : refuses writes n = true) :
    taken writes n < n := by
  induction writes generalizing n with
  | nil => cases n <;> cases h
  | cons r writes ih =>
    rcases n with - | n
    · cases h
    · cases r with
      | accept k =>
        have hrest := ih h
        rw [taken]
        · omega
        · exact Nat.succ_ne_zero n
      | eintr => exact ih h
      | eagain => cases h
      | zero | fail => exact Nat.succ_pos n

namespace Conn

/-- What `handleRead` compares with zero. -/
def readNum (c : Conn) : ℤ := toInt c.readn.1

theorem readPhase_eq (c : Conn) :
    c.readPhase = if c.readNum < 0 then .stop c.readn.2.badRequest else .next c.readn.2 := rfl

/-- `handleRead` takes reading for failed if and only if it has. -/
def ReadDecides (c : Conn) : Prop := c.readNum < 0 ↔ endsBadly c.socket.reads = true

/-- `writen` clears the string if and only if all of it was accepted. -/
def WriteDecides (c : Conn) : Prop :=
  c.writen.2.http.outBuffer = [] ↔ c.writen.2.socket.sent = c.socket.sent ++ c.http.outBuffer

/-- The socket takes a part of the output, of a length that narrowing does not tell
    from the whole of it, and nothing more for now. -/
def Fooled (c : Conn) : Prop :=
  refuses c.socket.writes c.http.outBuffer.length = false ∧
    taken c.socket.writes c.http.outBuffer.length < c.http.outBuffer.length ∧
    taken c.socket.writes c.http.outBuffer.length = c.http.outBuffer.length % 0x100000000 ∧
    taken c.socket.writes c.http.outBuffer.length < 0x80000000

variable (c : Conn)

theorem readNum_eq : c.readNum =
    if endsBadly c.socket.reads then -1 else toInt (drained c.socket.reads) := by
  simp only [readNum, readn, readn_ret, Int.zero_add]
  split
  · decide
  · exact toInt_toSizeT _

/-- A large number of bytes is not taken for an error, if its low 32 bits are not a
    negative number. -/
theorem readDecides_iff : c.ReadDecides ↔
    endsBadly c.socket.reads = true ∨ drained c.socket.reads % 0x100000000 < 0x80000000 := by
  rw [ReadDecides, readNum_eq, ← toInt_nonneg_iff]
  cases endsBadly c.socket.reads with
  | true => simp
  | false => simp

theorem writeDecides_iff : c.WriteDecides ↔ ¬c.Fooled := by
  have happ := writeLoop_append c.socket.writes c.http.outBuffer
  obtain ⟨hlen, hfailed⟩ := writeLoop_length c.socket.writes c.http.outBuffer
  have hle := writeLoop_accepted_length_le c.socket.writes c.http.outBuffer
  have hprefix : (writeLoop c.socket.writes c.http.outBuffer).accepted <+: c.http.outBuffer :=
    ⟨_, happ⟩
  have hall : (writeLoop c.socket.writes c.http.outBuffer).accepted = c.http.outBuffer ↔
      taken c.socket.writes c.http.outBuffer.length = c.http.outBuffer.length := by
    rw [← hlen]
    exact ⟨congrArg List.length, hprefix.eq_of_length⟩
  simp only [WriteDecides, writen, writen_accepted, List.append_cancel_left_eq, hall, Fooled]
  simp only [Webserver.writen, hfailed, hlen]
  rw [hlen] at hle
  split
  · next hrefuses =>
    -- Nothing is cleared after an error, which needs something to be left to write.
    have hlt := taken_lt_of_refuses hrefuses
    have hne : c.http.outBuffer ≠ [] := List.length_pos_iff.1 (Nat.zero_lt_of_lt hlt)
    simp only [hne, hlt.ne, hrefuses, Bool.true_eq_false, false_and, not_false_iff]
  · next hrefuses =>
    rw [Bool.not_eq_true] at hrefuses
    simp only [hrefuses, true_and]
    split
    · next heq =>
      rw [toInt] at heq
      split at heq <;> simp only [true_iff] <;> omega
    · next hne =>
      rw [toInt] at hne
      rw [List.drop_eq_nil_iff]
      split at hne <;> omega

/-- Both decisions are right, unless the lengths are so large that narrowing changes
    their sign, or takes one of them for another. -/
theorem decides_iff :
    (c.ReadDecides ↔
      endsBadly c.socket.reads = true ∨ drained c.socket.reads % 0x100000000 < 0x80000000) ∧
      (c.WriteDecides ↔ ¬c.Fooled) :=
  ⟨c.readDecides_iff, c.writeDecides_iff⟩

/-- A thousand zeros, and some more. -/
def block : Piece where
  bytes := List.replicate maxBuff 0
  nonempty := List.length_pos_iff.1 (by rw [List.length_replicate]; decide)
  bounded := Nat.le_of_eq List.length_replicate

theorem drained_replicate (n : ℕ) (piece : Piece) :
    drained (List.replicate n (.data piece)) = n * piece.bytes.length := by
  induction n with
  | zero => rw [Nat.zero_mul]; rfl
  | succ n ih => rw [List.replicate_succ, drained, ih, Nat.succ_mul, Nat.add_comm]

theorem endsBadly_replicate (n : ℕ) (piece : Piece) :
    endsBadly (List.replicate n (.data piece)) = false := by
  induction n with
  | zero => rfl
  | succ n ih => exact ih

/-- A connection that receives two gigabytes before `read` has to wait. -/
def flooded : Conn := first.onEvent (List.replicate 0x200000 (.data block)) []

/-- The first connection, with four gigabytes and four bytes to write, of which the
    socket takes four. -/
def backedUp : Conn :=
  { first with
    http.outBuffer := List.replicate 0x100000004 0
    socket.writes := [.accept 3, .eagain] }

theorem not_readDecides_flooded : ¬flooded.ReadDecides := by
  have hends : endsBadly flooded.socket.reads = false := endsBadly_replicate _ _
  have hdrained : drained flooded.socket.reads = 0x80000000 := by
    rw [flooded, onEvent, drained_replicate, block, List.length_replicate]
    rfl
  rw [readDecides_iff, hends, hdrained]
  decide

theorem not_writeDecides_backedUp : ¬backedUp.WriteDecides := by
  have hlen : backedUp.http.outBuffer.length = 0x100000004 := List.length_replicate
  have hwrites : backedUp.socket.writes = [.accept 3, .eagain] := rfl
  rw [writeDecides_iff, not_not, Fooled, hlen, hwrites]
  simp [refuses, taken]

/-- Neither decision is always right. -/
theorem exists_not_decides : ¬(∀ c : Conn, c.ReadDecides) ∧ ¬∀ c : Conn, c.WriteDecides :=
  ⟨fun h => not_readDecides_flooded (h flooded), fun h => not_writeDecides_backedUp (h backedUp)⟩

end Conn

end Webserver

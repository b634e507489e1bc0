import EmulatR.Library.Channel

/-! # The console behind the socket

The console device of the SRM (deviceLib/SRMConsoleDevice.cpp) stands between two threads. The
emulator reads and writes bytes; the backend thread owns the socket. Each side takes the lock for
one operation, so a run is any interleaving of their operations. What the emulator writes waits in a
queue until a drain runs on the backend thread, and every drain is asked for by a signal
(`pendingDrains`).

`tx_law` says that nothing written is lost, repeated or reordered and that no queued byte is left
without a drain to come; `rx_law` says what becomes of each received byte. `getString_line` is the
line editor: what it returns is what a terminal shows. -/

namespace EmulatR

open Library

namespace SrmConsoleDevice

/-! ## The device -/

/-- What a console is built with. -/
structure Config where
  /-- The length of the receive queue. -/
  rxBufferSize : Nat
  /-- A client is greeted. -/
  emitBanner : Bool
  /-- The greeting (`kConsoleBanner`). -/
  banner : List (BitVec 8)
  /-- The receive queue has room. -/
  rxBufferSize_pos : 0 < rxBufferSize

/-- The client. -/
inductive Socket
  | none | connected | closing
  deriving DecidableEq, Repr

/-- A console. -/
structure Console (cfg : Config) where
  /-- The server listens. -/
  running : Bool := false
  /-- The client. -/
  socket : Socket := .none
  /-- What has been received and not been read. -/
  rxQueue : List (BitVec 8) := []
  /-- What has been written and not been sent. -/
  txQueue : List (BitVec 8) := []
  /-- Drains asked for and not yet run. -/
  pendingDrains : Nat := 0
  /-- The receive queue is bounded. -/
  rx_le : rxQueue.length ≤ cfg.rxBufferSize

/-- What happens, on either thread. -/
inductive Event
  /-- The emulator reads a character, not waiting for one. -/
  | getChar
  /-- The emulator writes a character. -/
  | putChar (ch : BitVec 8)
  /-- The emulator writes a string. -/
  | putString (data : List (BitVec 8))
  /-- The emulator resets the console. -/
  | reset
  /-- The server is started. -/
  | start
  /-- The server is stopped. -/
  | stop
  /-- A client asks for a connection. -/
  | newConnection
  /-- The client has sent bytes. -/
  | readyRead (data : List (BitVec 8))
  /-- The client begins to close the connection. -/
  | peerClosed
  /-- The connection is gone. -/
  | disconnected
  /-- A drain runs. -/
  | drainTx
  deriving DecidableEq

section Receive

variable (cfg : Config)

/-- One received byte: a full queue drops its oldest. -/
def enqueueRx (q : List (BitVec 8)) (c : BitVec 8) : List (BitVec 8) :=
  (if cfg.rxBufferSize ≤ q.length then q.drop 1 else q) ++ [c]

/-- The receive buffer does not grow over its size. -/
theorem enqueueRx_le {q : List (BitVec 8)} (hq : q.length ≤ cfg.rxBufferSize) (c : BitVec 8) :
    (enqueueRx cfg q c).length ≤ cfg.rxBufferSize := by
  have hpos := cfg.rxBufferSize_pos
  rw [enqueueRx, List.length_append, List.length_singleton]
  split
  · rw [List.length_drop]
    omega
  · omega

/-- Bytes received at once. -/
def enqueueAll (q data : List (BitVec 8)) : List (BitVec 8) := data.foldl (enqueueRx cfg) q

/-- The queue keeps the last bytes. -/
theorem enqueueAll_eq {q : List (BitVec 8)} (hq : q.length ≤ cfg.rxBufferSize)
    (data : List (BitVec 8)) :
    enqueueAll cfg q data = (q ++ data).drop (q.length + data.length - cfg.rxBufferSize) := by
  induction data generalizing q with
  | nil =>
    rw [List.append_nil, List.length_nil, Nat.add_zero, Nat.sub_eq_zero_of_le hq, List.drop_zero]
    rfl
  | cons c data ih =>
    have hpos := cfg.rxBufferSize_pos
    have hstep : enqueueAll cfg q (c :: data) = enqueueAll cfg (enqueueRx cfg q c) data := rfl
    rw [hstep, ih (enqueueRx_le cfg hq c), enqueueRx]
    split
    · rename_i hfull
      have hlen : q.length = cfg.rxBufferSize := Nat.le_antisymm hq hfull
      have hdrop : q.drop 1 ++ [c] ++ data = (q ++ c :: data).drop 1 := by
        rw [List.append_assoc, List.singleton_append, List.drop_append_of_le_length (by omega)]
      rw [hdrop, List.drop_drop]
      congr 1
      simp only [List.length_append, List.length_drop, List.length_cons, List.length_nil]
      omega
    · rw [List.append_assoc, List.singleton_append]
      congr 1
      simp only [List.length_append, List.length_cons, List.length_nil]
      omega

/-- The receive buffer does not grow over its size with a block of bytes. -/
theorem enqueueAll_le {q : List (BitVec 8)} (hq : q.length ≤ cfg.rxBufferSize)
    (data : List (BitVec 8)) : (enqueueAll cfg q data).length ≤ cfg.rxBufferSize := by
  rw [enqueueAll_eq cfg hq, List.length_drop, List.length_append]
  omega

end Receive

namespace Console

variable {cfg : Config}

/-- A console that has just been made. -/
def fresh (cfg : Config) : Console cfg := { rx_le := Nat.zero_le _ }

/-- The emulator reads a character if there is one. -/
def getChar (s : Console cfg) : Console cfg × Option (BitVec 8) :=
  ({ s with rxQueue := s.rxQueue.drop 1
            rx_le := (List.drop_sublist 1 s.rxQueue).length_le.trans s.rx_le }, s.rxQueue.head?)

/-- The emulator writes a character, and asks for a drain. -/
def putChar (s : Console cfg) (ch : BitVec 8) : Console cfg :=
  { s with txQueue := s.txQueue ++ [ch], pendingDrains := s.pendingDrains + 1 }

/-- The emulator writes a string; an empty one does nothing. -/
def putString (s : Console cfg) (data : List (BitVec 8)) : Console cfg :=
  if data = [] then s
  else { s with txQueue := s.txQueue ++ data, pendingDrains := s.pendingDrains + 1 }

/-- What has been received is forgotten. -/
def clearRx (s : Console cfg) : Console cfg := { s with rxQueue := [], rx_le := Nat.zero_le _ }

/-- A client is taken if there is none. -/
def onNewConnection (s : Console cfg) : Console cfg :=
  if s.running = false ∨ s.socket ≠ .none then s
  else
    let txQueue := s.txQueue ++ if cfg.emitBanner then cfg.banner else []
    { s.clearRx with
      socket := .connected
      txQueue := txQueue
      -- what was written before the client came is drained now
      pendingDrains := s.pendingDrains + if txQueue = [] then 0 else 1 }

/-- Bytes from the client. -/
def onReadyRead (s : Console cfg) (data : List (BitVec 8)) : Console cfg :=
  if s.socket = .none then s
  else { s with rxQueue := enqueueAll cfg s.rxQueue data, rx_le := enqueueAll_le cfg s.rx_le data }

/-- The connection is gone. -/
def onDisconnected (s : Console cfg) : Console cfg := { s.clearRx with socket := .none }

/-- A drain sends what is queued; without a client the bytes stay. -/
def onDrainTx (s : Console cfg) : Console cfg × List (BitVec 8) :=
  if s.pendingDrains = 0 then (s, [])
  else
    let s := { s with pendingDrains := s.pendingDrains - 1 }
    if s.socket = .connected then ({ s with txQueue := [] }, s.txQueue) else (s, [])

/-- The server is stopped; both queues are forgotten. -/
def stop (s : Console cfg) : Console cfg :=
  if s.running then { s.clearRx with running := false, socket := .none, txQueue := [] } else s

/-- One event. -/
def step (s : Console cfg) : Event → Console cfg
  | .getChar => s.getChar.1
  | .putChar ch => s.putChar ch
  | .putString data => s.putString data
  | .reset => s.clearRx
  | .start => { s with running := true }
  | .stop => s.stop
  | .newConnection => s.onNewConnection
  | .readyRead data => s.onReadyRead data
  | .peerClosed => if s.socket = .connected then { s with socket := .closing } else s
  | .disconnected => s.onDisconnected
  | .drainTx => s.onDrainTx.1

/-! ## Sending -/

/-- What an event puts into the send queue. -/
def added (s : Console cfg) : Event → List (BitVec 8)
  | .putChar ch => [ch]
  | .putString data => data
  | .newConnection =>
    if s.running = false ∨ s.socket ≠ .none then [] else if cfg.emitBanner then cfg.banner else []
  | _ => []

/-- What an event hands to the socket. -/
def sent (s : Console cfg) : Event → List (BitVec 8)
  | .drainTx => s.onDrainTx.2
  | _ => []

/-- What an event throws away unsent. -/
def discarded (s : Console cfg) : Event → List (BitVec 8)
  | .stop => if s.running then s.txQueue else []
  | _ => []

/-- The send queue gets what is added and loses what is sent or thrown away. -/
theorem txQueue_step (s : Console cfg) (e : Event) :
    s.txQueue ++ s.added e = (s.sent e ++ s.discarded e) ++ (s.step e).txQueue := by
  cases e with
  | putString data =>
    simp only [added, sent, discarded, step, putString, List.nil_append]
    split
    · rename_i hnil
      rw [hnil, List.append_nil]
    · rfl
  | newConnection =>
    simp only [added, sent, discarded, step, onNewConnection, List.nil_append]
    split
    · exact List.append_nil _
    · rfl
  | readyRead data =>
    simp only [added, sent, discarded, step, onReadyRead, List.nil_append, List.append_nil]
    split <;> rfl
  | peerClosed =>
    simp only [added, sent, discarded, step, List.nil_append, List.append_nil]
    split <;> rfl
  | stop =>
    simp only [added, sent, discarded, step, stop, List.nil_append, List.append_nil]
    split
    · exact (List.append_nil _).symm
    · rfl
  | drainTx =>
    simp only [added, sent, discarded, step, onDrainTx, List.append_nil]
    split
    · rfl
    · split
      · exact (List.append_nil _).symm
      · rfl
  | _ => simp only [added, sent, discarded, step, putChar, getChar, clearRx, onDisconnected,
      List.nil_append, List.append_nil]

/-- A queued byte has a drain to come while there is a client. -/
def DrainComes (s : Console cfg) : Prop :=
  s.socket = .connected → s.txQueue ≠ [] → 0 < s.pendingDrains

/-- **One event keeps a drain to come** for what is queued. -/
theorem drainComes_step {s : Console cfg} (h : s.DrainComes) (e : Event) : (s.step e).DrainComes := by
  cases e with
  | putChar ch => exact fun _ _ => Nat.succ_pos _
  | putString data =>
    simp only [step, putString]
    split
    · exact h
    · exact fun _ _ => Nat.succ_pos _
  | start => exact h
  | stop =>
    simp only [step, stop]
    split
    · exact fun hconn => by cases hconn
    · exact h
  | newConnection =>
    simp only [step, onNewConnection]
    split
    · exact h
    · intro _ hne
      rw [if_neg hne]
      exact Nat.succ_pos _
  | readyRead data =>
    simp only [step, onReadyRead]
    split <;> exact h
  | peerClosed =>
    simp only [step]
    split
    · exact fun hconn => by cases hconn
    · exact h
  | disconnected => exact fun hconn => by cases hconn
  | drainTx =>
    simp only [step, onDrainTx]
    split
    · exact h
    · split
      · exact fun _ hne => absurd rfl hne
      · rename_i hconn
        exact fun h' => absurd h' hconn
  | _ => exact h

/-! ## Receiving -/

/-- What becomes of a received byte. -/
inductive Fate
  /-- The emulator reads it. -/
  | read
  /-- A full queue drops it. -/
  | dropped
  /-- It goes with the client, or by a reset. -/
  | cleared
  deriving DecidableEq, Repr

/-- What an event puts into the receive queue. -/
def received (s : Console cfg) : Event → List (BitVec 8)
  | .readyRead data => if s.socket = .none then [] else data
  | _ => []

/-- The bytes that an event takes out of the receive queue, or keeps from entering it. -/
def gone (s : Console cfg) : Event → List (Fate × BitVec 8)
  | .getChar => (s.rxQueue.take 1).map (Prod.mk .read)
  | .readyRead data =>
    if s.socket = .none then []
    else ((s.rxQueue ++ data).take (s.rxQueue.length + data.length - cfg.rxBufferSize)).map
      (Prod.mk .dropped)
  | .newConnection =>
    if s.running = false ∨ s.socket ≠ .none then [] else s.rxQueue.map (Prod.mk .cleared)
  | .stop => if s.running then s.rxQueue.map (Prod.mk .cleared) else []
  | .reset => s.rxQueue.map (Prod.mk .cleared)
  | .disconnected => s.rxQueue.map (Prod.mk .cleared)
  | _ => []

/-- The receive queue gets what is received and loses what is read, dropped or cleared. -/
theorem rxQueue_step (s : Console cfg) (e : Event) :
    s.rxQueue ++ s.received e = (s.gone e).map Prod.snd ++ (s.step e).rxQueue := by
  have hsnd : ∀ (f : Fate) (q : List (BitVec 8)), (q.map (Prod.mk f)).map Prod.snd = q := by
    intro f q
    rw [List.map_map]
    exact List.map_id q
  cases e with
  | getChar =>
    simp only [received, gone, step, getChar, hsnd, List.append_nil]
    exact (List.take_append_drop 1 _).symm
  | putString data =>
    simp only [received, gone, step, putString, List.map_nil, List.nil_append, List.append_nil]
    split <;> rfl
  | readyRead data =>
    simp only [received, gone, step, onReadyRead]
    split
    · exact List.append_nil _
    · rw [hsnd]
      exact (List.take_append_drop _ _).symm.trans
        (congrArg _ (enqueueAll_eq cfg s.rx_le data).symm)
  | newConnection =>
    simp only [received, gone, step, onNewConnection, List.append_nil]
    split
    · rfl
    · rw [hsnd]
      exact (List.append_nil _).symm
  | stop =>
    simp only [received, gone, step, stop, List.append_nil]
    split
    · rw [hsnd]
      exact (List.append_nil _).symm
    · rfl
  | reset =>
    simp only [received, gone, step, clearRx, hsnd]
  | disconnected =>
    simp only [received, gone, step, clearRx, onDisconnected, hsnd]
  | peerClosed =>
    simp only [received, gone, step, List.map_nil, List.nil_append, List.append_nil]
    split <;> rfl
  | drainTx =>
    simp only [received, gone, step, onDrainTx, List.map_nil, List.nil_append, List.append_nil]
    split
    · rfl
    · split <;> rfl
  | _ => simp only [received, gone, step, putChar, List.map_nil, List.nil_append, List.append_nil]

/-- What an event returns to the emulator. -/
def returned (s : Console cfg) : Event → List (BitVec 8)
  | .getChar => s.getChar.2.toList
  | _ => []

/-- The bytes that are read are those returned. -/
theorem returned_eq (s : Console cfg) (e : Event) :
    s.returned e = ((s.gone e).filter fun x => x.1 = .read).map Prod.snd := by
  have hnone : ∀ (f : Fate) (q : List (BitVec 8)), f ≠ .read →
      ((q.map (Prod.mk f)).filter fun x => x.1 = .read) = [] := by
    intro f q hf
    rw [List.filter_eq_nil_iff]
    intro x hx
    obtain ⟨b, -, rfl⟩ := List.mem_map.1 hx
    simpa using hf
  cases e with
  | getChar =>
    simp only [returned, gone, getChar]
    cases s.rxQueue <;> rfl
  | readyRead data =>
    simp only [returned, gone]
    split
    · rfl
    · rw [hnone _ _ (by decide)]
      rfl
  | newConnection =>
    simp only [returned, gone]
    split
    · rfl
    · rw [hnone _ _ (by decide)]
      rfl
  | stop =>
    simp only [returned, gone]
    split
    · rw [hnone _ _ (by decide)]
      rfl
    · rfl
  | reset => simp only [returned, gone, hnone _ _ (by decide : Fate.cleared ≠ .read), List.map_nil]
  | disconnected =>
    simp only [returned, gone, hnone _ _ (by decide : Fate.cleared ≠ .read), List.map_nil]
  | _ => rfl

/-- A byte is dropped only into a full queue. -/
theorem length_of_dropped {s : Console cfg} {e : Event} {b : BitVec 8}
    (h : (Fate.dropped, b) ∈ s.gone e) : (s.step e).rxQueue.length = cfg.rxBufferSize := by
  have hmap : ∀ (f : Fate) (q : List (BitVec 8)), (Fate.dropped, b) ∈ q.map (Prod.mk f) →
      f = .dropped := by
    intro f q hmem
    obtain ⟨c, -, hc⟩ := List.mem_map.1 hmem
    exact congrArg Prod.fst hc
  cases e with
  | getChar => exact nomatch hmap _ _ h
  | readyRead data =>
    simp only [gone] at h
    split at h
    · cases h
    · rename_i hsock
      obtain ⟨c, hc, -⟩ := List.mem_map.1 h
      have hpos : 0 < s.rxQueue.length + data.length - cfg.rxBufferSize := by
        rcases Nat.eq_zero_or_pos (s.rxQueue.length + data.length - cfg.rxBufferSize) with h0 | hpos
        · rw [h0] at hc
          cases hc
        · exact hpos
      have hstep : (s.step (.readyRead data)).rxQueue = enqueueAll cfg s.rxQueue data := by
        simp only [step, onReadyRead, if_neg hsock]
      rw [hstep, enqueueAll_eq cfg s.rx_le, List.length_drop, List.length_append]
      omega
  | newConnection =>
    simp only [gone] at h
    split at h
    · cases h
    · exact nomatch hmap _ _ h
  | stop =>
    simp only [gone] at h
    split at h
    · exact nomatch hmap _ _ h
    · cases h
  | reset => exact nomatch hmap _ _ h
  | disconnected => exact nomatch hmap _ _ h
  | _ => cases h

/-! ## Runs -/

/-- The console after a run. -/
def after (cfg : Config) (es : List Event) : Console cfg := runFrom step (fresh cfg) es

/-- With a client, the next drain sends all that is queued. -/
def Flushes (s : Console cfg) : Prop := s.socket = .connected → (s.step .drainTx).txQueue = []

/-- With a drain to come, what is in the transmit buffer comes out. -/
theorem DrainComes.flushes {s : Console cfg} (h : s.DrainComes) : s.Flushes := by
  intro hconn
  simp only [step, onDrainTx]
  split
  · rename_i hpending
    by_contra hne
    exact absurd (h hconn hne) (by omega)
  · rfl

/-- After every history, what is queued has a drain to come. -/
theorem drainComes_after (cfg : Config) (es : List Event) : (after cfg es).DrainComes := by
  have hrun : ∀ s : Console cfg, s.DrainComes → (runFrom step s es).DrainComes := by
    induction es with
    | nil => exact fun s h => h
    | cons e es ih => exact fun s h => ih _ (drainComes_step h e)
  exact hrun _ fun hconn => by cases hconn

/-- Nothing written is lost, repeated or reordered: what the two threads have queued is what has
been handed to the socket, or thrown away by a stop, and what is still queued; and whatever the
interleaving, a client gets all of it by the next drain. -/
theorem tx_law (cfg : Config) (es : List Event) :
    collect step added (fresh cfg) es =
        collect step (fun s e => s.sent e ++ s.discarded e) (fresh cfg) es ++ (after cfg es).txQueue ∧
      (after cfg es).Flushes :=
  ⟨collect_queue txQueue_step (fresh cfg) es, (drainComes_after cfg es).flushes⟩

/-- The bytes returned over a run. -/
theorem collect_returned (s : Console cfg) (es : List Event) :
    collect step returned s es = ((collect step gone s es).filter fun x => x.1 = .read).map
      Prod.snd := by
  induction es generalizing s with
  | nil => rfl
  | cons e es ih => rw [collect, collect, ih, returned_eq, List.filter_append, List.map_append]

/-- Every byte from the client is read, dropped, cleared with its client, or still queued, in the
order received; what the emulator has read is among them once each, in order; and a byte is dropped
only by an event that leaves the queue full. -/
theorem rx_law (cfg : Config) (es : List Event) :
    collect step received (fresh cfg) es =
        (collect step gone (fresh cfg) es).map Prod.snd ++ (after cfg es).rxQueue ∧
      collect step returned (fresh cfg) es =
        ((collect step gone (fresh cfg) es).filter fun x => x.1 = .read).map Prod.snd ∧
      (collect step returned (fresh cfg) es).Sublist (collect step received (fresh cfg) es) ∧
      ∀ done e b, done ++ [e] <+: es → (Fate.dropped, b) ∈ (after cfg done).gone e →
        (after cfg (done ++ [e])).rxQueue.length = cfg.rxBufferSize := by
  have hgone : ∀ (s : Console cfg), (collect step gone s es).map Prod.snd =
      collect step (fun s e => (s.gone e).map Prod.snd) s es := by
    induction es with
    | nil => exact fun s => rfl
    | cons e es ih =>
      intro s
      rw [collect, collect, List.map_append, ih]
  have hqueue := collect_queue rxQueue_step (fresh cfg) es
  rw [← hgone] at hqueue
  have hconserved : collect step received (fresh cfg) es =
      (collect step gone (fresh cfg) es).map Prod.snd ++ (after cfg es).rxQueue := hqueue
  refine ⟨hconserved, collect_returned _ es, ?_, fun done e b _ hdropped => ?_⟩
  · rw [hconserved, collect_returned]
    exact (List.filter_sublist.map Prod.snd).trans (List.sublist_append_left _ _)
  · rw [after, runFrom_append]
    exact length_of_dropped hdropped

end Console

/-! ## The line editor -/

/-- The control characters of the editor and of the terminal. -/
def BS : BitVec 8 := 0x08
/-- Line feed. -/
def LF : BitVec 8 := 0x0A
/-- Carriage return. -/
def CR : BitVec 8 := 0x0D
/-- Delete. -/
def DEL : BitVec 8 := 0x7F

/-- A character that a line may hold. -/
def IsPrintable (c : BitVec 8) : Prop := 0x20 ≤ c ∧ c < 0x7F

instance (c : BitVec 8) : Decidable (IsPrintable c) := inferInstanceAs (Decidable (_ ∧ _))

/-- A character that ends a line. -/
def IsEol (c : BitVec 8) : Prop := c = CR ∨ c = LF

instance (c : BitVec 8) : Decidable (IsEol c) := inferInstanceAs (Decidable (_ ∨ _))

/-- The last character is taken back. -/
def handleBackspace (line : List (BitVec 8)) : List (BitVec 8) × List (BitVec 8) :=
  if line = [] then ([], []) else (line.dropLast, [BS, 0x20, BS])

/-- One character that does not end the line: the new line, and the echo. -/
def edit (maxLen : BitVec 64) (line : List (BitVec 8)) (c : BitVec 8) :
    List (BitVec 8) × List (BitVec 8) :=
  if c = BS ∨ c = DEL then handleBackspace line
  else if IsPrintable c then
    -- both sides are 32-bit signed numbers
    if (line.length : ℤ) < ((maxLen - 1).setWidth 32).toInt then (line ++ [c], [c]) else (line, [])
  else (line, [])

/-- The loop of `getString`: the line, the echo, and the input that is left. It ends with the line,
or when no more input comes. -/
def editLoop (maxLen : BitVec 64) (line : List (BitVec 8)) :
    List (BitVec 8) → List (BitVec 8) × List (BitVec 8) × List (BitVec 8)
  | [] => (line, [], [])
  | c :: input =>
    if IsEol c then (line, [CR, LF], input)
    else
      let (line', out) := edit maxLen line c
      let (line'', out', rest) := editLoop maxLen line' input
      (line'', out ++ out', rest)

/-- What a call of `getString` does. -/
structure Gets where
  /-- What is stored at the buffer. -/
  buffer : List (BitVec 8)
  /-- What is returned. -/
  len : BitVec 64
  /-- What is written to the console. -/
  echoed : List (BitVec 8)
  /-- The input that is left. -/
  rest : List (BitVec 8)

/-- A line is read into a buffer of `maxLen` bytes. -/
def getString (maxLen : BitVec 64) (echo : Bool) (input : List (BitVec 8)) : Gets :=
  if maxLen < 2 then { buffer := [], len := 0, echoed := [], rest := input }
  else
    let (line, out, rest) := editLoop maxLen [] input
    let len := min line.length (maxLen - 1).toNat
    { buffer := line.take len ++ [0], len := len, echoed := if echo then out else [], rest := rest }

/-! ### The terminal -/

/-- A terminal: the rows above, the latest first, and the row of the cursor. -/
structure Terminal where
  /-- The rows above, the latest first. -/
  rows : List (List (BitVec 8))
  /-- What stands left of the cursor, the nearest first. -/
  before : List (BitVec 8)
  /-- What stands from the cursor on. -/
  after : List (BitVec 8)

/-- The row of the cursor. -/
def Terminal.row (t : Terminal) : List (BitVec 8) := t.before.reverse ++ t.after

/-- The terminal takes a character. -/
def Terminal.put (t : Terminal) (c : BitVec 8) : Terminal :=
  if c = BS then { t with before := t.before.tail, after := t.before.head?.toList ++ t.after }
  else if c = CR then { t with before := [], after := t.row }
  else if c = LF then
    { rows := t.row :: t.rows, before := List.replicate t.before.length 0x20, after := [] }
  else { t with before := c :: t.before, after := t.after.tail }

/-- The terminal takes what is echoed. -/
def Terminal.puts (t : Terminal) (out : List (BitVec 8)) : Terminal := out.foldl Terminal.put t

/-- What is written in two parts. -/
theorem Terminal.puts_append (t : Terminal) (out out' : List (BitVec 8)) :
    t.puts (out ++ out') = (t.puts out).puts out' := List.foldl_append

/-- The cursor stands at the end of the line, which follows the prompt, and all beyond is blank. -/
structure Shows (prompt line : List (BitVec 8)) (t : Terminal) : Prop where
  /-- Before the cursor stand the prompt and the line. -/
  before_eq : t.before = line.reverse ++ prompt.reverse
  /-- After it nothing is left of what was rubbed out. -/
  after_blank : ∀ c ∈ t.after, c = 0x20

/-- What is echoed for one character shows the new line. -/
theorem Shows.edit {prompt line : List (BitVec 8)} {t : Terminal} (h : Shows prompt line t)
    (maxLen : BitVec 64) (c : BitVec 8) :
    Shows prompt (edit maxLen line c).1 (t.puts (edit maxLen line c).2) ∧
      (t.puts (edit maxLen line c).2).rows = t.rows := by
  unfold SrmConsoleDevice.edit handleBackspace
  split
  · split
    · rename_i hnil
      subst hnil
      exact ⟨h, rfl⟩
    · rename_i hne
      obtain ⟨line', b, rfl⟩ := List.eq_nil_or_concat line |>.resolve_left hne
      have hbefore : t.before = b :: (line'.reverse ++ prompt.reverse) := by
        rw [h.before_eq, List.concat_eq_append, List.reverse_append]
        rfl
      have hputs : t.puts [BS, 0x20, BS] =
          { t with before := line'.reverse ++ prompt.reverse, after := 0x20 :: t.after } := by
        obtain ⟨rows, before, after⟩ := t
        cases hbefore
        rfl
      rw [hputs]
      refine ⟨⟨?_, ?_⟩, rfl⟩
      · rw [List.concat_eq_append, List.dropLast_concat]
      · intro c hc
        rcases List.mem_cons.1 hc with rfl | hc
        · rfl
        · exact h.after_blank c hc
  · split
    · rename_i hc
      split
      · have hputs : t.puts [c] = { t with before := c :: t.before, after := t.after.tail } := by
          have hBS : c ≠ BS := fun heq => absurd hc (by rw [heq]; decide)
          have hCR : c ≠ CR := fun heq => absurd hc (by rw [heq]; decide)
          have hLF : c ≠ LF := fun heq => absurd hc (by rw [heq]; decide)
          exact (if_neg hBS).trans ((if_neg hCR).trans (if_neg hLF))
        rw [hputs]
        refine ⟨⟨?_, fun c hc => h.after_blank c (List.mem_of_mem_tail hc)⟩, rfl⟩
        rw [List.reverse_append, h.before_eq]
        rfl
      · exact ⟨h, rfl⟩
    · exact ⟨h, rfl⟩

/-- The line is what editing makes of the input before its end. -/
def typed (maxLen : BitVec 64) (line input : List (BitVec 8)) : List (BitVec 8) :=
  (input.takeWhile fun c => ¬IsEol c).foldl (fun line c => (edit maxLen line c).1) line

/-- The loop reads up to the end of the line and leaves the rest. -/
theorem editLoop_eq (maxLen : BitVec 64) (line input : List (BitVec 8)) :
    (editLoop maxLen line input).1 = typed maxLen line input ∧
      (editLoop maxLen line input).2.2 = (input.dropWhile fun c => ¬IsEol c).tail := by
  induction input generalizing line with
  | nil => exact ⟨rfl, rfl⟩
  | cons c input ih =>
    rw [editLoop, typed]
    by_cases hc : IsEol c
    · rw [if_pos hc, List.takeWhile_cons_of_neg (by simpa using hc),
        List.dropWhile_cons_of_neg (by simpa using hc)]
      exact ⟨rfl, rfl⟩
    · rw [if_neg hc, List.takeWhile_cons_of_pos (by simpa using hc),
        List.dropWhile_cons_of_pos (by simpa using hc)]
      exact ih (edit maxLen line c).1

/-- What is echoed shows the line, and moves the terminal to a new row where the line has ended. -/
theorem Shows.editLoop {prompt line : List (BitVec 8)} {t : Terminal} (h : Shows prompt line t)
    (maxLen : BitVec 64) (input : List (BitVec 8)) :
    ((∀ c ∈ input, ¬IsEol c) → Shows prompt (editLoop maxLen line input).1
        (t.puts (editLoop maxLen line input).2.1)) ∧
      ((∃ c ∈ input, IsEol c) → ∃ blanks : List (BitVec 8), (∀ c ∈ blanks, c = 0x20) ∧
        (t.puts (editLoop maxLen line input).2.1).rows =
          (prompt ++ (editLoop maxLen line input).1 ++ blanks) :: t.rows) := by
  induction input generalizing line t with
  | nil => exact ⟨fun _ => h, fun ⟨c, hc, _⟩ => by cases hc⟩
  | cons c input ih =>
    rw [SrmConsoleDevice.editLoop]
    by_cases hc : IsEol c
    · rw [if_pos hc]
      refine ⟨fun hall => absurd hc (hall c List.mem_cons_self), fun _ => ⟨t.after, h.after_blank, ?_⟩⟩
      have hrow : (t.puts [CR, LF]).rows = t.row :: t.rows := rfl
      rw [hrow, Terminal.row, h.before_eq, List.reverse_append, List.reverse_reverse,
        List.reverse_reverse]
    · rw [if_neg hc]
      obtain ⟨hedit, hrows⟩ := h.edit maxLen c
      obtain ⟨ihopen, ihended⟩ := ih hedit
      simp only [Terminal.puts_append]
      refine ⟨fun hall => ihopen fun c' hc' => hall c' (List.mem_cons_of_mem c hc'), ?_⟩
      rintro ⟨c', hc', heol⟩
      rcases List.mem_cons.1 hc' with rfl | hc'
      · exact absurd heol hc
      · obtain ⟨blanks, hblank, hrow⟩ := ihended ⟨c', hc', heol⟩
        exact ⟨blanks, hblank, hrow.trans (congrArg _ hrows)⟩

/-- A line that fits the buffer and holds printable characters. -/
structure Fits (maxLen : BitVec 64) (line : List (BitVec 8)) : Prop where
  /-- There is room for the terminating zero. -/
  length_lt : line.length < maxLen.toNat
  /-- Only printable characters are kept. -/
  printable : ∀ c ∈ line, IsPrintable c

/-- One less, without a wrap. -/
theorem toNat_sub_one {maxLen : BitVec 64} (h : 1 ≤ maxLen.toNat) :
    (maxLen - 1).toNat = maxLen.toNat - 1 := BitVec.toNat_sub_of_le h

/-- The room of a line is never more than the buffer has, whatever the cast makes of it. -/
theorem toInt_setWidth_le (n : BitVec 64) : (n.setWidth 32).toInt ≤ n.toNat := by
  have hmod := Nat.mod_le n.toNat (2 ^ 32)
  rw [BitVec.toInt_eq_toNat_cond, BitVec.toNat_setWidth]
  split <;> omega

/-- One key keeps the line fitting. -/
theorem Fits.edit {maxLen : BitVec 64} {line : List (BitVec 8)} (h : Fits maxLen line)
    (c : BitVec 8) : Fits maxLen (edit maxLen line c).1 := by
  unfold SrmConsoleDevice.edit handleBackspace
  split
  · split
    · exact ⟨(Nat.zero_le _).trans_lt h.length_lt, fun c hc => by cases hc⟩
    · refine ⟨?_, fun c hc => h.printable c ((List.dropLast_sublist _).subset hc)⟩
      rw [List.length_dropLast]
      exact (Nat.sub_le _ _).trans_lt h.length_lt
  · split
    · rename_i hc
      split
      · rename_i hroom
        refine ⟨?_, ?_⟩
        · have hle := toInt_setWidth_le (maxLen - 1)
          have hpos := h.length_lt
          rw [toNat_sub_one (by omega)] at hle
          rw [List.length_append, List.length_singleton]
          omega
        · intro c' hc'
          rcases List.mem_append.1 hc' with hc' | hc'
          · exact h.printable c' hc'
          · rw [List.mem_singleton.1 hc']
            exact hc
      · exact h
    · exact h

/-- Any input keeps the line fitting. -/
theorem Fits.typed {maxLen : BitVec 64} {line : List (BitVec 8)} (h : Fits maxLen line)
    (input : List (BitVec 8)) : Fits maxLen (typed maxLen line input) := by
  unfold SrmConsoleDevice.typed
  induction input.takeWhile fun c => ¬IsEol c generalizing line with
  | nil => exact h
  | cons c cs ih => exact ih (h.edit c)

end SrmConsoleDevice

end EmulatR

import Mathlib.Data.Fintype.EquivFin
import Mathlib.Data.List.OfFn
import Mathlib.Data.List.FinRange

/-! # Byte streams and the readers that invert their writers

A writer of a value is the list of bytes it puts on a stream. A reader takes a value off the front
of a stream and leaves the rest; on a short stream it takes what there is and reads zero.

* `Reads g p a` says that the reader `g` undoes the writer `p` of `a`: in front of any further
  bytes it takes exactly `p`, and returns `a`. The rules for `pure`, `bind`, `map`, lists and arrays
  build the reader of a record from those of its fields, field by field and in the writer's order.
* Fixed-width integers are little-endian (`leBytes`, `getWord`). A raw read fills a buffer
  (`fillFrom`), so what a short read does not reach keeps its old content.
* A file of many sections is loaded by one step per section. `foldlM_consumes` puts the steps
  together, and `foldlM_take_consumes` says where every section starts: at the bytes its writer put
  there. -/

namespace EmulatR.Library.Codec

universe u v w

/-- A byte stream. -/
abbrev Stream := List (BitVec 8)

/-- A reader. -/
abbrev Reader (α : Type) := StateM Stream α

section Reads

variable {α β : Type}

/-- The reader takes exactly these bytes, whatever follows them, and returns the value. -/
def Reads (g : Reader α) (bytes : Stream) (a : α) : Prop :=
  ∀ rest, g.run (bytes ++ rest) = (a, rest)

/-- A reader of nothing. -/
theorem Reads.pure (a : α) : Reads (Pure.pure a) [] a := fun _ => rfl

/-- One reader after another. -/
theorem Reads.bind {g : Reader α} {f : α → Reader β} {p q : Stream} {a : α} {b : β}
    (hg : Reads g p a) (hf : Reads (f a) q b) : Reads (g >>= f) (p ++ q) b := by
  intro rest
  have hfirst := hg (q ++ rest)
  have hthen := hf rest
  rw [List.append_assoc, StateT.run_bind, hfirst]
  exact hthen

/-- Mapping the result of a reader. -/
theorem run_map (f : α → β) (g : Reader α) (s : Stream) :
    (f <$> g).run s = (f (g.run s).1, (g.run s).2) := rfl

/-- A mapped reader reads the mapped value. -/
theorem Reads.map {g : Reader α} {p : Stream} {a : α} (f : α → β) (hg : Reads g p a) :
    Reads (f <$> g) p (f a) := by
  intro rest
  rw [run_map, hg rest]

/-- The last reader of a record, which needs no bytes after it. -/
theorem Reads.bind_pure {g : Reader α} {f : α → β} {p : Stream} {a : α} {b : β}
    (hg : Reads g p a) (hf : f a = b) : Reads (g >>= fun a => Pure.pure (f a)) p b := by
  have h : Reads (g >>= fun a => Pure.pure (f a)) (p ++ []) b := by
    refine hg.bind ?_
    rw [hf]
    exact Reads.pure b
  rwa [List.append_nil] at h

end Reads

/-! ## Integers -/

section Words

variable {width : Nat}

/-- The `n` low bytes of a value, the lowest first. -/
def leBytes : Nat → BitVec width → Stream
  | 0, _ => []
  | n + 1, v => v.setWidth 8 :: leBytes n (v >>> 8)

/-- The value of little-endian bytes. -/
def ofBytes (width : Nat) : Stream → BitVec width
  | [] => 0
  | b :: bs => b.setWidth width ||| (ofBytes width bs <<< 8)

/-- A word in `n` bytes. -/
@[simp] theorem length_leBytes (n : Nat) (v : BitVec width) : (leBytes n v).length = n := by
  induction n generalizing v with
  | zero => rfl
  | succ n ih => rw [leBytes, List.length_cons, ih]

/-- The bytes of a value determine as many of its bits as they have. -/
theorem getLsbD_ofBytes_leBytes (n : Nat) (v : BitVec width) (i : Nat) :
    (ofBytes width (leBytes n v)).getLsbD i = (decide (i < 8 * n) && v.getLsbD i) := by
  induction n generalizing v i with
  | zero => simp [leBytes, ofBytes]
  | succ n ih =>
    rw [leBytes, ofBytes, BitVec.getLsbD_or, BitVec.getLsbD_setWidth, BitVec.getLsbD_setWidth,
      BitVec.getLsbD_shiftLeft, ih, BitVec.getLsbD_ushiftRight]
    by_cases hwidth : i < width
    · by_cases hlow : i < 8
      · have htotal : i < 8 * (n + 1) := by omega
        simp [hwidth, hlow, htotal]
      · have hbit : 8 + (i - 8) = i := by omega
        have hiff : i - 8 < 8 * n ↔ i < 8 * (n + 1) := by omega
        simp [hwidth, hlow, hbit, hiff]
    · have hout : v.getLsbD i = false := BitVec.getLsbD_of_ge v i (by omega)
      simp [hwidth, hout]

/-- As many bytes as the value is wide determine it. -/
theorem ofBytes_leBytes {n : Nat} (hwidth : width ≤ 8 * n) (v : BitVec width) :
    ofBytes width (leBytes n v) = v := by
  refine BitVec.eq_of_getLsbD_eq fun i hi => ?_
  have hin : i < 8 * n := by omega
  rw [getLsbD_ofBytes_leBytes, decide_eq_true hin, Bool.true_and]

/-- Read an integer of `n` bytes. A stream that ends inside it is used up and gives zero. -/
def getWord (width n : Nat) : Reader (BitVec width) := fun s =>
  if s.length < n then (0, []) else (ofBytes width (s.take n), s.drop n)

/-- A word is read back from its bytes, least significant first. -/
theorem reads_word {n : Nat} (hwidth : width ≤ 8 * n) (v : BitVec width) :
    Reads (getWord width n) (leBytes n v) v := by
  intro rest
  have hlen : (leBytes n v).length = n := length_leBytes n v
  have hlong : ¬ (leBytes n v ++ rest).length < n := by
    rw [List.length_append, hlen]
    omega
  unfold getWord
  rw [StateT.run, if_neg hlong, List.take_left' hlen, List.drop_left' hlen, ofBytes_leBytes hwidth]

/-- A byte. -/
def putU8 (v : BitVec 8) : Stream := leBytes 1 v
/-- A 32-bit integer. -/
def putU32 (v : BitVec 32) : Stream := leBytes 4 v
/-- A 64-bit integer. -/
def putU64 (v : BitVec 64) : Stream := leBytes 8 v
/-- A truth value, as a byte. -/
def putBool (b : Bool) : Stream := putU8 (if b then 1 else 0)

/-- Read a byte. -/
def getU8 : Reader (BitVec 8) := getWord 8 1
/-- Read four bytes. -/
def getU32 : Reader (BitVec 32) := getWord 32 4
/-- Read eight bytes. -/
def getU64 : Reader (BitVec 64) := getWord 64 8
/-- Any byte but zero is true. -/
def getBool : Reader Bool := (· != 0) <$> getU8

/-- A byte is read back. -/
theorem reads_u8 (v : BitVec 8) : Reads getU8 (putU8 v) v := reads_word (by omega) v

/-- Four bytes are read back. -/
theorem reads_u32 (v : BitVec 32) : Reads getU32 (putU32 v) v := reads_word (by omega) v

/-- Eight bytes are read back. -/
theorem reads_u64 (v : BitVec 64) : Reads getU64 (putU64 v) v := reads_word (by omega) v

/-- A flag is read back. -/
theorem reads_bool (b : Bool) : Reads getBool (putBool b) b := by
  have h := (reads_u8 (if b then 1 else 0)).map (· != 0)
  cases b with
  | false => exact h
  | true => exact h

end Words

/-! ## Lists and arrays -/

section Lists

variable {α : Type}

/-- Read a value `n` times. -/
def getMany (g : Reader α) : Nat → Reader (List α)
  | 0 => pure []
  | n + 1 => do
    let a ← g
    let as ← getMany g n
    pure (a :: as)

/-- A list is read back, element by element. -/
theorem reads_many {g : Reader α} {put : α → Stream} (h : ∀ a, Reads g (put a) a) (as : List α) :
    Reads (getMany g as.length) (as.flatMap put) as := by
  induction as with
  | nil => exact Reads.pure []
  | cons a as ih => exact (h a).bind (ih.bind_pure rfl)

/-- An array, its elements in the order of their index. -/
def putArray {n : Nat} (put : α → Stream) (f : Fin n → α) : Stream := (List.ofFn f).flatMap put

/-- Read an array of a fixed size. -/
def getArray [Inhabited α] (n : Nat) (g : Reader α) : Reader (Fin n → α) :=
  (fun as (i : Fin n) => as.getD i default) <$> getMany g n

/-- An array is read back. -/
theorem reads_array [Inhabited α] {n : Nat} {g : Reader α} {put : α → Stream}
    (h : ∀ a, Reads g (put a) a) (f : Fin n → α) :
    Reads (getArray n g) (putArray put f) f := by
  have hlist := (reads_many h (List.ofFn f)).map fun as (i : Fin n) => as.getD i default
  have hvalue : (fun i : Fin n => (List.ofFn f).getD i default) = f := by
    funext i
    simp
  rw [List.length_ofFn, hvalue] at hlist
  exact hlist

end Lists

/-! ## Raw bytes -/

/-- Take up to `n` bytes as they are. -/
def getRaw (n : Nat) : Reader Stream := fun s => (s.take n, s.drop n)

/-- Raw bytes are read back. -/
theorem reads_raw (bytes : Stream) : Reads (getRaw bytes.length) bytes bytes := by
  intro rest
  unfold getRaw
  rw [StateT.run, List.take_left, List.drop_left]

/-- A buffer whose front has been overwritten. -/
def fillFrom (buffer bytes : Stream) : Stream := bytes ++ buffer.drop bytes.length

/-- A buffer that is overwritten whole. -/
theorem fillFrom_of_length_le {buffer bytes : Stream} (h : buffer.length ≤ bytes.length) :
    fillFrom buffer bytes = bytes := by
  rw [fillFrom, List.drop_eq_nil_of_le h, List.append_nil]

/-- Filling a buffer keeps its length. -/
theorem length_fillFrom {buffer bytes : Stream} (h : bytes.length ≤ buffer.length) :
    (fillFrom buffer bytes).length = buffer.length := by
  rw [fillFrom, List.length_append, List.length_drop]
  omega

/-- Byte `k` of block `i`, where all blocks have one size. -/
theorem getElem?_flatMap_block {α : Type} {put : α → Stream} {n : Nat}
    (hput : ∀ a, (put a).length = n) (as : List α) (i : Nat) {k : Nat} (hk : k < n) :
    (as.flatMap put)[i * n + k]? = as[i]?.bind fun a => (put a)[k]? := by
  induction as generalizing i with
  | nil => rfl
  | cons a as ih =>
    rw [List.flatMap_cons]
    cases i with
    | zero =>
      rw [Nat.zero_mul, Nat.zero_add, List.getElem?_append_left (by rw [hput]; exact hk)]
      rfl
    | succ i =>
      have hindex : (i + 1) * n + k - n = i * n + k := by
        rw [Nat.succ_mul]
        omega
      have hge : n ≤ (i + 1) * n + k := by
        rw [Nat.succ_mul]
        omega
      rw [List.getElem?_append_right (by rw [hput]; exact hge), hput, hindex, ih]
      rfl

/-- A value with an image of a fixed number of bytes, copied to the stream and back as it is. -/
structure Pod (α : Type) where
  /-- The number of bytes. -/
  size : Nat
  /-- The image. -/
  image : α → Stream
  /-- The value of an image. -/
  ofImage : Stream → α
  /-- An image has that size. -/
  length_image : ∀ a, (image a).length = size
  /-- The image determines the value. -/
  ofImage_image : ∀ a, ofImage (image a) = a

/-- Read an image over the one of the value that is there. -/
def Pod.get {α : Type} (pod : Pod α) (old : α) : Reader α :=
  (fun bytes => pod.ofImage (fillFrom (pod.image old) bytes)) <$> getRaw pod.size

/-- A record is read back from its image. -/
theorem Pod.reads {α : Type} (pod : Pod α) (old a : α) :
    Reads (pod.get old) (pod.image a) a := by
  have hraw := (reads_raw (pod.image a)).map fun bytes =>
    pod.ofImage (fillFrom (pod.image old) bytes)
  have hfill : fillFrom (pod.image old) (pod.image a) = pod.image a :=
    fillFrom_of_length_le (by rw [pod.length_image, pod.length_image])
  rw [pod.length_image, hfill, pod.ofImage_image] at hraw
  exact hraw

/-- A finite type has an image: one byte for each of its values. -/
theorem Pod.nonempty (α : Type) [Finite α] [Nonempty α] : Nonempty (Pod α) := by
  classical
  obtain ⟨n, ⟨e⟩⟩ := Finite.exists_equiv_fin α
  have hinj : Function.Injective fun a : α =>
      List.ofFn fun i : Fin n => if e a = i then (1 : BitVec 8) else 0 := by
    intro a b h
    have hat := congrFun (List.ofFn_injective h) (e a)
    by_contra hne
    have hne' : e b ≠ e a := fun h => hne (e.injective h.symm)
    rw [if_pos rfl, if_neg hne'] at hat
    exact absurd hat (by decide)
  exact ⟨{
    size := n
    image := _
    ofImage := Function.invFun _
    length_image := fun a => List.length_ofFn
    ofImage_image := Function.leftInverse_invFun hinj }⟩

/-! ## Files of sections -/

section Sections

variable {S : Type u} {σ : Type v} {E : Type w}

/-- Under an invariant of the loading state, the step of a section takes exactly its bytes, does
`apply` to the state and keeps the invariant. -/
def Consumes (inv : σ → Prop) (step : S → σ × Stream → Except E (σ × Stream)) (bytes : S → Stream)
    (apply : S → σ → σ) (s : S) : Prop :=
  ∀ a, inv a → inv (apply s a) ∧ ∀ rest, step s (a, bytes s ++ rest) = .ok (apply s a, rest)

variable {inv : σ → Prop} {step : S → σ × Stream → Except E (σ × Stream)} {bytes : S → Stream}
  {apply : S → σ → σ}

/-- **Sections one after another.** -/
theorem foldlM_consumes {sections : List S} (h : ∀ s ∈ sections, Consumes inv step bytes apply s)
    {a : σ} (ha : inv a) (rest : Stream) :
    sections.foldlM (fun x s => step s x) (a, sections.flatMap bytes ++ rest) =
      .ok (sections.foldl (fun a s => apply s a) a, rest) := by
  induction sections generalizing a with
  | nil => rfl
  | cons s ss ih =>
    obtain ⟨hinv, hstep⟩ := h s (List.mem_cons_self ..) a ha
    rw [List.flatMap_cons, List.append_assoc, List.foldlM_cons, hstep, List.foldl_cons]
    exact ih (fun t ht => h t (List.mem_cons_of_mem s ht)) hinv

/-- **Every section is read where it was written**: after the first `n` the stream stands at the
bytes of the others. -/
theorem foldlM_take_consumes {sections : List S}
    (h : ∀ s ∈ sections, Consumes inv step bytes apply s) {a : σ} (ha : inv a) (rest : Stream)
    (n : Nat) :
    (sections.take n).foldlM (fun x s => step s x) (a, sections.flatMap bytes ++ rest) =
      .ok ((sections.take n).foldl (fun a s => apply s a) a,
        (sections.drop n).flatMap bytes ++ rest) := by
  have hsplit : sections.flatMap bytes ++ rest =
      (sections.take n).flatMap bytes ++ ((sections.drop n).flatMap bytes ++ rest) := by
    rw [← List.append_assoc, ← List.flatMap_append, List.take_append_drop]
  rw [hsplit]
  exact foldlM_consumes (fun s hs => h s (List.mem_of_mem_take hs)) ha _

end Sections

end EmulatR.Library.Codec

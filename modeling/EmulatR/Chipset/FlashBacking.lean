import EmulatR.Chipset.FlashRom
import EmulatR.System.Snapshot

/-! # The backing image of the flash

The flash is filled from a raw image of its 2 MB, from a file (`loadRaw`) or out of a snapshot
(`restoreImage`), and a machine that boots without an image seeds it from the firmware file
(chipsetLib/FlashRom.cpp and the flash part of `Machine::loadSrmFirmware`). `backingLoaded` is to
say which of the two it is.

The flag is set with an image and never cleared, and a short snapshot image sets it as well.
`reports_iff` is the exact condition for it to be right. -/

namespace EmulatR

open Library Library.Codec

namespace FlashRom

/-- A file as it is read: its content, and how much of it a read delivers. -/
structure BackingFile where
  /-- The bytes of the file. -/
  content : Stream
  /-- The number of bytes that a read of the whole file delivers. -/
  delivered : Nat
  /-- A read delivers no more than there is. -/
  delivered_le : delivered ≤ content.length

/-- The flash with the state of its persistence. -/
structure Backed where
  /-- The chip. -/
  rom : FlashRom := {}
  /-- Unflushed mutations exist. -/
  dirty : Bool := false
  /-- A mutation has occurred since the last poll. -/
  pendingMutation : Bool := false
  /-- A file has been loaded. -/
  backingLoaded : Bool := false
  /-- The cycle of the last mutation. -/
  lastMutateCycle : Word := 0
  /-- Its path. -/
  path : String := ""

namespace Backed

/-- `FlashRom::factoryInit`. The loaded flag is not part of it. -/
def factoryInit (f : Backed) : Backed :=
  { f with rom := { data := fun _ => kErased, mode := .read }, dirty := false,
           pendingMutation := false }

/-- An array that takes its front from some bytes. -/
def overlay (bytes : Stream) (data : Fin kSize → BitVec 8) : Fin kSize → BitVec 8 :=
  fun i => bytes.getD i (data i)

/-- `FlashRom::loadRaw`, with the file that is found under the path. -/
def loadRaw (path : String) (file : Option BackingFile) (f : Backed) : Backed :=
  let f := factoryInit { f with path := path }
  if path = "" then f
  else
    match file with
    -- the first boot: the firmware initializes the flash
    | none => f
    | some b =>
      if b.content.length ≠ kSize then f
      else
        let f := { f with rom := { f.rom with
          data := overlay (b.content.take b.delivered) f.rom.data } }
        if b.delivered ≠ kSize then factoryInit f
        else { f with rom := { f.rom with mode := .read }, dirty := false, backingLoaded := true }

/-- `FlashRom::restoreImage`. -/
def restoreImage (image : Stream) (f : Backed) : Backed :=
  { f with
    rom := Snapshot.restoreImage image
    backingLoaded := true
    dirty := false
    pendingMutation := false
    lastMutateCycle := 0 }

/-- `FlashRom::seedFrom`. -/
def seedFrom (bytes : Stream) (f : Backed) : Backed :=
  if bytes = [] then f
  else
    { f with
      rom := { data := overlay (bytes.take kSize) f.rom.data, mode := .read }
      dirty := true
      pendingMutation := true
      lastMutateCycle := 0 }

/-- The seeding of `Machine::loadSrmFirmware`, with the firmware file if it can be reopened. -/
def seedFromFirmware (firmware : Option Stream) (f : Backed) : Backed :=
  if f.backingLoaded then f
  else
    match firmware with
    | some bytes => f.seedFrom (bytes.take kSize)
    | none => f

/-! ## Images -/

/-- A call that fills the flash. -/
inductive Call
  /-- Bind a path, whose file may be missing. -/
  | loadRaw (path : String) (file : Option BackingFile)
  /-- Restore the array from a snapshot. -/
  | restoreImage (image : Stream)

/-- The flash after a call. -/
def step (f : Backed) : Call → Backed
  | .loadRaw path file => f.loadRaw path file
  | .restoreImage image => f.restoreImage image

/-- The complete image that a call brings. -/
def Call.image : Call → Option (Fin kSize → BitVec 8)
  | .loadRaw path file =>
    file.bind fun b =>
      if path ≠ "" ∧ b.content.length = kSize ∧ b.delivered = kSize then
        some fun i => b.content.getD i kErased
      else none
  | .restoreImage image =>
    if kSize ≤ image.length then some fun i => image.getD i kErased else none

/-- The flash reports the last call right: with its image adopted the flag is set, and without one
it is clear, the array is erased and the machine seeds it. -/
def Reports (f : Backed) (last : Option Call) : Prop :=
  match last.bind Call.image with
  | some image => f.backingLoaded = true ∧ f.rom.data = image ∧ ∀ fw, f.seedFromFirmware fw = f
  | none =>
    f.backingLoaded = false ∧ (f.rom.data = fun _ => kErased) ∧
      ∀ bytes, f.seedFromFirmware (some bytes) = f.seedFrom (bytes.take kSize)

/-- What the flag needs of a call: it brings an image, or it is the load of a file and no image has
been adopted before. -/
def Call.Ok (f : Backed) : Call → Prop
  | .loadRaw path file => f.backingLoaded = false ∨ (Call.loadRaw path file).image ≠ none
  | .restoreImage image => (Call.restoreImage image).image ≠ none

/-! ## What the flag says -/

/-- A whole file of the right size becomes the array. -/
theorem image_loadRaw {path : String} {b : BackingFile} (hpath : path ≠ "")
    (hlen : b.content.length = kSize) (hread : b.delivered = kSize) :
    (Call.loadRaw path (some b)).image = some fun i : Fin kSize => b.content.getD i kErased := by
  rw [Call.image, Option.bind_some, if_pos ⟨hpath, hlen, hread⟩]

/-- A load without an image leaves the array erased and the flag as it was. -/
theorem loadRaw_of_image_eq_none {path : String} {file : Option BackingFile} (f : Backed)
    (h : (Call.loadRaw path file).image = none) :
    (f.loadRaw path file).backingLoaded = f.backingLoaded ∧
      (f.loadRaw path file).rom.data = fun _ => kErased := by
  unfold loadRaw
  by_cases hpath : path = ""
  · rw [if_pos hpath]
    exact ⟨rfl, rfl⟩
  rw [if_neg hpath]
  cases file with
  | none => exact ⟨rfl, rfl⟩
  | some b =>
    by_cases hlen : b.content.length = kSize
    · by_cases hread : b.delivered = kSize
      · rw [image_loadRaw hpath hlen hread] at h
        cases h
      · simp only [hlen, hread, ne_eq, not_true_eq_false, not_false_eq_true, if_true, if_false]
        exact ⟨rfl, rfl⟩
    · simp only [hlen, ne_eq, not_false_eq_true, if_true]
      exact ⟨rfl, rfl⟩

/-- A load with an image adopts it. -/
theorem loadRaw_of_image_eq_some {path : String} {file : Option BackingFile}
    {image : Fin kSize → BitVec 8} (f : Backed)
    (h : (Call.loadRaw path file).image = some image) :
    (f.loadRaw path file).backingLoaded = true ∧ (f.loadRaw path file).rom.data = image := by
  cases file with
  | none => cases h
  | some b =>
    rw [Call.image, Option.bind_some] at h
    split at h
    · next hok =>
      obtain ⟨hpath, hlen, hread⟩ := hok
      cases h
      unfold loadRaw
      rw [if_neg hpath]
      simp only [hlen, hread, ne_eq, not_true_eq_false, if_false, List.take_of_length_le hlen.le]
      exact ⟨trivial, rfl⟩
    · cases h

/-- A flash with the array erased is right iff its flag is clear, if no image has come. -/
theorem reports_of_erased {f : Backed} {last : Option Call} (hlast : last.bind Call.image = none)
    (hdata : f.rom.data = fun _ => kErased) : Reports f last ↔ f.backingLoaded = false := by
  rw [Reports, hlast]
  constructor
  · exact fun h => h.1
  · intro hclear
    refine ⟨hclear, hdata, fun bytes => ?_⟩
    unfold seedFromFirmware
    rw [hclear, if_neg Bool.false_ne_true]

/-- A flash with the flag set and the image of the last call is right. -/
theorem reports_of_image {f : Backed} {last : Option Call} {image : Fin kSize → BitVec 8}
    (hlast : last.bind Call.image = some image) (hset : f.backingLoaded = true)
    (hdata : f.rom.data = image) : Reports f last := by
  rw [Reports, hlast]
  refine ⟨hset, hdata, fun fw => ?_⟩
  unfold seedFromFirmware
  rw [hset, if_pos rfl]

/-- **One call**: the flag is right after it iff the call is as the flag needs it. -/
theorem reports_step_iff (f : Backed) (c : Call) : Reports (f.step c) (some c) ↔ c.Ok f := by
  cases c with
  | loadRaw path file =>
    cases himage : (Call.loadRaw path file).image with
    | none =>
      obtain ⟨hflag, hdata⟩ := loadRaw_of_image_eq_none f himage
      have hiff : Reports (f.loadRaw path file) (some (.loadRaw path file)) ↔
          (f.loadRaw path file).backingLoaded = false := reports_of_erased himage hdata
      rw [step, hiff, hflag, Call.Ok, himage]
      simp only [ne_eq, not_true_eq_false, or_false]
    | some image =>
      obtain ⟨hset, hdata⟩ := loadRaw_of_image_eq_some f himage
      refine iff_of_true (reports_of_image himage hset hdata) (Or.inr ?_)
      rw [himage]
      exact Option.some_ne_none image
  | restoreImage image =>
    by_cases hlong : kSize ≤ image.length
    · have himage : (Call.restoreImage image).image =
          some fun i : Fin kSize => image.getD i kErased := if_pos hlong
      refine iff_of_true (reports_of_image himage rfl ?_) ?_
      · funext i
        have hi : i.val < image.length := i.isLt.trans_le hlong
        exact if_pos hi
      · rw [Call.Ok, himage]
        exact Option.some_ne_none _
    · have himage : (Call.restoreImage image).image = none := if_neg hlong
      refine iff_of_false ?_ fun h => h himage
      intro h
      rw [Reports, Option.bind_some, himage] at h
      cases h.1

/-- The call that was last, kept beside the flash. -/
def stepLast (x : Backed × Option Call) (c : Call) : Backed × Option Call := (x.1.step c, some c)

/-- The last call is carried along a run. -/
theorem runFrom_stepLast (x : Backed × Option Call) (calls : List Call) :
    runFrom stepLast x calls = (runFrom step x.1 calls, calls.getLast?.or x.2) := by
  induction calls using List.reverseRecOn with
  | nil => rfl
  | append_singleton calls c ih =>
    rw [runFrom_append, ih, runFrom_append, List.getLast?_concat]
    rfl

/-- **The flag is right all along a run of calls** iff no load fails once an image has been adopted,
and every image out of a snapshot is complete. -/
theorem reports_iff (calls : List Call) :
    (∀ done, done <+: calls → Reports (runFrom step {} done) done.getLast?) ↔
      RunMeets step (fun f c => c.Ok f) {} calls := by
  have hstart : Reports {} none := (reports_of_erased rfl rfl).2 rfl
  have hstep : ∀ (x : Backed × Option Call) c, Reports x.1 x.2 → True →
      (Reports (stepLast x c).1 (stepLast x c).2 ↔ c.Ok x.1) :=
    fun x c _ _ => reports_step_iff x.1 c
  have hruns := forall_prefix_iff_runMeets hstep (fun _ _ _ _ => trivial)
    (s := (({}, none) : Backed × Option Call)) hstart trivial calls
  simp only [runFrom_stepLast, Option.or_none] at hruns
  rw [hruns]
  exact RunMeets_comp (f := Prod.fst) (fun _ _ => rfl)

/-- A file of 2 MB, of zeros. -/
def zeroFile : BackingFile := ⟨List.replicate kSize 0, kSize, List.length_replicate.ge⟩

/-- A machine finds an image under the default path, and none under the path of its firmware. -/
def rebind : List Call := [.loadRaw "ds10_flash.rom" (some zeroFile), .loadRaw "ds20_v7_3.rom" none]

/-- **Rebound to a file that is not there, the erased flash still counts as loaded**, and the
machine does not seed it. -/
theorem rebind_not_reported :
    ¬ ∀ done, done <+: rebind → Reports (runFrom step {} done) done.getLast? := by
  intro h
  have hlen : zeroFile.content.length = kSize := List.length_replicate
  have himage : (Call.loadRaw "ds10_flash.rom" (some zeroFile)).image =
      some fun i : Fin kSize => zeroFile.content.getD i kErased :=
    image_loadRaw (by decide) hlen rfl
  have hset := (loadRaw_of_image_eq_some {} himage).1
  have hnone : (Call.loadRaw "ds20_v7_3.rom" none).image = none := rfl
  have hkept :=
    (loadRaw_of_image_eq_none (loadRaw "ds10_flash.rom" (some zeroFile) {}) hnone).1
  have hclear : (runFrom step {} rebind).backingLoaded = false := (h rebind (List.prefix_refl _)).1
  have hset' : (runFrom step {} rebind).backingLoaded = true := hkept.trans hset
  rw [hset'] at hclear
  cases hclear

end Backed

end FlashRom

end EmulatR

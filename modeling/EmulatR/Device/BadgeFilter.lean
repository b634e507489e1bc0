import Mathlib.Data.List.TakeWhile
import EmulatR.Library.OnlineRewriting
import EmulatR.System.Board

/-! # The badge filter of the console

The bytes that a serial port transmits pass a filter that replaces the number of a "<n> MHz" by the
effective clock rate (`badgeTxEmit` of deviceLib/Tsunami/Uart16550.h). It withholds a run of digits
and what follows it until it is known whether that is the end of such a token; on a mismatch it lets
the run go and feeds the rest to itself again.

`rewrite` says what the filter does with a stream, without its states: a run of at most 24 digits in
front of " MHz" is replaced, a longer one passes in blocks of 25. `badge_filter` is the proof. -/

namespace EmulatR

open Library

/-- The filter state of a serial port. -/
structure BadgeFilter where
  /-- Where it stands in a badge. -/
  state : BadgeState := .normal
  /-- The withheld digit run. -/
  pend : List (BitVec 8) := []
  /-- The withheld bytes that are matched against the suffix. -/
  suf : List (BitVec 8) := []

namespace BadgeFilter

/-! ## The filter -/

/-- An ASCII digit. -/
def isDigit (value : BitVec 8) : Bool := decide (0x30 ≤ value ∧ value ≤ 0x39)

/-- " MHz". -/
def kSuffix : List (BitVec 8) := [0x20, 0x4D, 0x48, 0x7A]

/-- The longest run that is withheld. -/
def kMaxRun : Nat := 24

/-- `std::to_string`. -/
def decimal (v : BitVec 32) : List (BitVec 8) :=
  (Nat.toDigits 10 v.toNat).map fun c => BitVec.ofNat 8 c.toNat

/-- The number that is put in the place of a run: right-justified to its width. -/
def badge (width : Nat) (mhz : BitVec 32) : List (BitVec 8) :=
  List.replicate (width - (decimal mhz).length) 0x20 ++ decimal mhz

/-- Feed bytes, one after the other, to a function that may have no answer. -/
def feedAll (f : BadgeFilter → BitVec 8 → Option (BadgeFilter × List (BitVec 8))) :
    BadgeFilter → List (BitVec 8) → Option (BadgeFilter × List (BitVec 8))
  | s, [] => some (s, [])
  | s, b :: bs => (f s b).bind fun r => (feedAll f r.1 bs).map fun r' => (r'.1, r.2 ++ r'.2)

/-- Let all withheld bytes go. -/
def badgeFlushPending (s : BadgeFilter) : BadgeFilter × List (BitVec 8) := ({}, s.pend ++ s.suf)

/-- The suffix part, with the function that takes the bytes after a mismatch. -/
def badgeSuffix (refeed : BadgeFilter → List (BitVec 8) → Option (BadgeFilter × List (BitVec 8)))
    (mhz : BitVec 32) (s : BadgeFilter) (value : BitVec 8) :
    Option (BadgeFilter × List (BitVec 8)) :=
  let suf := s.suf ++ [value]
  if suf <+: kSuffix then
    if suf.length = kSuffix.length then some ({}, badge s.pend.length mhz ++ suf)
    else some ({ s with suf := suf }, [])
  else (refeed {} suf).map fun r => (r.1, s.pend ++ r.2)

/-- `badgeTxEmit`, with the clock rate at that moment and a bound on the depth of the recursion. -/
def badgeTxEmitN (mhz : BitVec 32) :
    Nat → BadgeFilter → BitVec 8 → Option (BadgeFilter × List (BitVec 8))
  | 0, _, _ => none
  | fuel + 1, s, value =>
    match s.state with
    | .normal =>
      if isDigit value then some ({ s with state := .digits, pend := [value] }, [])
      else some (s, [value])
    | .digits =>
      if isDigit value then
        if s.pend.length < kMaxRun then some ({ s with pend := s.pend ++ [value] }, [])
        else some ((badgeFlushPending s).1, (badgeFlushPending s).2 ++ [value])
      else
        badgeSuffix (feedAll (badgeTxEmitN mhz fuel)) mhz { s with state := .suffix, suf := [] }
          value
    | .suffix => badgeSuffix (feedAll (badgeTxEmitN mhz fuel)) mhz s value

/-- A byte that is transmitted, with the clock rate at that moment. -/
abbrev Tx := BitVec 8 × BitVec 32

/-- `badgeTxEmit`: the recursion ends at this depth (`badgeTxEmitN_total`). -/
def badgeTxEmit (s : BadgeFilter) (x : Tx) : BadgeFilter × List (BitVec 8) :=
  (badgeTxEmitN x.2 (s.suf.length + 2) s x.1).getD (s, [])

/-! ## The recursion ends -/

/-- Bytes are fed to the end if the function has an answer for filters with a short suffix, and
makes the suffix longer by at most one. -/
theorem feedAll_total {f : BadgeFilter → BitVec 8 → Option (BadgeFilter × List (BitVec 8))}
    {limit : Nat}
    (hf : ∀ s b, s.suf.length + 2 ≤ limit →
      ∃ r, f s b = some r ∧ r.1.suf.length ≤ s.suf.length + 1) :
    ∀ (bs : List (BitVec 8)) (s : BadgeFilter), s.suf.length + bs.length + 1 ≤ limit →
      ∃ r, feedAll f s bs = some r ∧ r.1.suf.length ≤ s.suf.length + bs.length := by
  intro bs
  induction bs with
  | nil => exact fun s _ => ⟨_, rfl, Nat.le_refl _⟩
  | cons b bs ih =>
    intro s hlimit
    rw [List.length_cons] at hlimit
    obtain ⟨r, hr, hlen⟩ := hf s b (by omega)
    obtain ⟨r', hr', hlen'⟩ := ih r.1 (by omega)
    refine ⟨(r'.1, r.2 ++ r'.2), ?_, ?_⟩
    · rw [feedAll, hr, Option.bind_some, hr', Option.map_some]
    · simp only [List.length_cons]
      omega

/-- A filter in its normal state looks at one byte only. -/
theorem badgeTxEmitN_normal {s : BadgeFilter} (mhz : BitVec 32) (fuel : Nat) (value : BitVec 8)
    (hs : s.state = .normal) :
    badgeTxEmitN mhz (fuel + 1) s value =
      if isDigit value then some ({ s with state := .digits, pend := [value] }, [])
      else some (s, [value]) := by
  rw [badgeTxEmitN, hs]

/-- **The recursion on a mismatch ends**, in every state of the filter: what is fed again is shorter
each time. -/
theorem badgeTxEmitN_total (mhz : BitVec 32) :
    ∀ (fuel : Nat) (s : BadgeFilter) (value : BitVec 8), s.suf.length + 2 ≤ fuel →
      ∃ r, badgeTxEmitN mhz fuel s value = some r ∧ r.1.suf.length ≤ s.suf.length + 1 := by
  intro fuel
  induction fuel with
  | zero => intro s value h; omega
  | succ fuel ih =>
    -- the suffix part, whose first byte finds the filter in its normal state
    have hsuffix : ∀ (s : BadgeFilter) (value : BitVec 8), s.suf.length + 2 ≤ fuel + 1 →
        ∃ r, badgeSuffix (feedAll (badgeTxEmitN mhz fuel)) mhz s value = some r ∧
          r.1.suf.length ≤ s.suf.length + 1 := by
      intro s value hfuel
      rw [badgeSuffix]
      split
      · split
        · exact ⟨_, rfl, Nat.zero_le _⟩
        · refine ⟨_, rfl, ?_⟩
          simp
      · obtain ⟨fuel, rfl⟩ : ∃ k, fuel = k + 1 := ⟨fuel - 1, by omega⟩
        obtain ⟨b, bs, hbs⟩ : ∃ b bs, s.suf ++ [value] = b :: bs :=
          List.exists_cons_of_ne_nil (by simp)
        have hlen : bs.length = s.suf.length := by
          have := congrArg List.length hbs
          simp only [List.length_append, List.length_cons, List.length_nil] at this
          omega
        obtain ⟨r, hr, hsuf⟩ : ∃ r, badgeTxEmitN mhz (fuel + 1) {} b = some r ∧ r.1.suf = [] := by
          rw [badgeTxEmitN_normal mhz fuel b rfl]
          split
          · exact ⟨_, rfl, rfl⟩
          · exact ⟨_, rfl, rfl⟩
        obtain ⟨r', hr', hlen'⟩ := feedAll_total (ih ·) bs r.1 (by
          rw [hsuf, List.length_nil]
          omega)
        refine ⟨(r'.1, s.pend ++ (r.2 ++ r'.2)), ?_, ?_⟩
        · rw [hbs, feedAll, hr, Option.bind_some, hr', Option.map_some, Option.map_some]
        · rw [hsuf, List.length_nil] at hlen'
          simp only []
          omega
    intro s value hfuel
    obtain ⟨state, pend, suf⟩ := s
    cases state with
    | normal =>
      rw [badgeTxEmitN_normal mhz fuel value rfl]
      split
      · exact ⟨_, rfl, Nat.le_succ _⟩
      · exact ⟨_, rfl, Nat.le_succ _⟩
    | digits =>
      rw [badgeTxEmitN]
      simp only []
      split
      · split
        · exact ⟨_, rfl, Nat.le_succ _⟩
        · exact ⟨_, rfl, Nat.zero_le _⟩
      · simp only at hfuel
        obtain ⟨r, hr, hlen⟩ := hsuffix ⟨.suffix, pend, []⟩ value
          (by rw [List.length_nil]; omega)
        refine ⟨r, hr, hlen.trans ?_⟩
        simp
    | suffix =>
      rw [badgeTxEmitN]
      exact hsuffix _ value hfuel

/-- With the fuel of the definition the filter has its answer. -/
theorem badgeTxEmit_eq {s : BadgeFilter} {x : Tx} {r : BadgeFilter × List (BitVec 8)}
    (h : badgeTxEmitN x.2 (s.suf.length + 2) s x.1 = some r) : badgeTxEmit s x = r := by
  rw [badgeTxEmit, h, Option.getD_some]

/-! ## What the filter does with a stream -/

/-- The bytes of a stream. -/
def bytes (xs : List Tx) : List (BitVec 8) := xs.map Prod.fst

/-- The bytes of two streams in a row. -/
@[simp] theorem bytes_append (xs ys : List Tx) : bytes (xs ++ ys) = bytes xs ++ bytes ys :=
  List.map_append

/-- Every character is one byte. -/
@[simp] theorem length_bytes (xs : List Tx) : (bytes xs).length = xs.length := List.length_map ..

/-- The byte is a digit. -/
def Tx.digit (x : Tx) : Bool := isDigit x.1

/-- Dropping a run of digits leaves less. -/
theorem length_dropWhile_digit_lt {x : Tx} (rest : List Tx) (hx : x.digit = true) :
    ((x :: rest).dropWhile Tx.digit).length < (x :: rest).length := by
  rw [List.dropWhile_cons_of_pos hx]
  exact Nat.lt_succ_of_le (List.dropWhile_suffix _).length_le

/-- What is put out for a stream, and which end of it is withheld, if runs of up to `maxRun` digits
count as numbers:

* a byte that is no digit passes;
* of a longer run, `maxRun + 1` digits pass as a block;
* a number in front of " MHz" is replaced by the clock rate;
* a number is withheld, with what follows it, while that may still become " MHz";
* any other number passes. -/
def rewrite (maxRun : Nat) : List Tx → List (BitVec 8) × List Tx
  | [] => ([], [])
  | x :: rest =>
    if _ : x.digit = true then
      let run := (x :: rest).takeWhile Tx.digit
      let after := (x :: rest).dropWhile Tx.digit
      if maxRun < run.length then
        let r := rewrite maxRun ((x :: rest).drop (maxRun + 1))
        (bytes ((x :: rest).take (maxRun + 1)) ++ r.1, r.2)
      else if kSuffix <+: bytes after then
        let r := rewrite maxRun (after.drop kSuffix.length)
        (badge run.length (after.getD (kSuffix.length - 1) x).2 ++ kSuffix ++ r.1, r.2)
      else if bytes after <+: kSuffix then ([], x :: rest)
      else
        let r := rewrite maxRun after
        (bytes run ++ r.1, r.2)
    else
      let r := rewrite maxRun rest
      (x.1 :: r.1, r.2)
termination_by xs => xs.length
decreasing_by
  · simp only [List.length_drop, List.length_cons]
    omega
  · have := length_dropWhile_digit_lt rest ‹x.digit = true›
    simp only [List.length_drop]
    omega
  · exact length_dropWhile_digit_lt rest ‹_›
  · exact Nat.lt_succ_self _

section Rules

variable {maxRun : Nat} {ds after rest : List Tx}

/-- A byte that is no digit passes. -/
theorem rewrite_plain {x : Tx} (hx : x.digit = false) :
    rewrite maxRun (x :: rest) = (x.1 :: (rewrite maxRun rest).1, (rewrite maxRun rest).2) := by
  rw [rewrite, dif_neg (by rw [hx]; exact Bool.false_ne_true)]

/-- Digits up to a byte that is none are the run in front of it. -/
theorem span_digits (hds : ∀ d ∈ ds, Tx.digit d = true)
    (hafter : ∀ y ∈ after.head?, Tx.digit y = false) :
    (ds ++ after).takeWhile Tx.digit = ds ∧ (ds ++ after).dropWhile Tx.digit = after := by
  rw [List.takeWhile_append_of_pos hds, List.dropWhile_append_of_pos hds]
  cases after with
  | nil => exact ⟨List.append_nil ds, rfl⟩
  | cons y after =>
    have hy : ¬ Tx.digit y = true := by
      rw [hafter y rfl]
      exact Bool.false_ne_true
    rw [List.takeWhile_cons_of_neg hy, List.dropWhile_cons_of_neg hy, List.append_nil]
    exact ⟨rfl, rfl⟩

/-- Of a longer run a block passes. -/
theorem rewrite_block (hds : ∀ d ∈ ds, Tx.digit d = true) (hlen : ds.length = maxRun + 1) :
    rewrite maxRun (ds ++ rest) =
      (bytes ds ++ (rewrite maxRun rest).1, (rewrite maxRun rest).2) := by
  have hrun : maxRun < ((ds ++ rest).takeWhile Tx.digit).length := by
    rw [List.takeWhile_append_of_pos hds, List.length_append]
    omega
  have htake : (ds ++ rest).take (maxRun + 1) = ds := List.take_left' hlen
  have hdrop : (ds ++ rest).drop (maxRun + 1) = rest := List.drop_left' hlen
  obtain ⟨x, ds', rfl⟩ : ∃ x ds', ds = x :: ds' :=
    List.exists_cons_of_ne_nil fun h => by rw [h] at hlen; cases hlen
  rw [List.cons_append] at hrun htake hdrop ⊢
  rw [rewrite, dif_pos (hds x List.mem_cons_self)]
  simp only [if_pos hrun, htake, hdrop]

/-- What becomes of a number depends on what follows it. -/
theorem rewrite_number (hds : ∀ d ∈ ds, Tx.digit d = true) (hne : ds ≠ [])
    (hlen : ds.length ≤ maxRun) (hafter : ∀ y ∈ after.head?, Tx.digit y = false) (y : Tx) :
    rewrite maxRun (ds ++ after) =
      if kSuffix <+: bytes after then
        (badge ds.length (after.getD (kSuffix.length - 1) y).2 ++ kSuffix ++
            (rewrite maxRun (after.drop kSuffix.length)).1,
          (rewrite maxRun (after.drop kSuffix.length)).2)
      else if bytes after <+: kSuffix then ([], ds ++ after)
      else (bytes ds ++ (rewrite maxRun after).1, (rewrite maxRun after).2) := by
  obtain ⟨htake, hdrop⟩ := span_digits hds hafter
  obtain ⟨x, ds', rfl⟩ := List.exists_cons_of_ne_nil hne
  have hdefault : kSuffix <+: bytes after → after.getD (kSuffix.length - 1) x =
      after.getD (kSuffix.length - 1) y := by
    intro h
    have hlong : kSuffix.length ≤ after.length := by
      rw [← length_bytes]
      exact h.length_le
    have hin : kSuffix.length - 1 < after.length := Nat.lt_of_lt_of_le (by decide) hlong
    rw [List.getD_eq_getElem?_getD, List.getD_eq_getElem?_getD, List.getElem?_eq_getElem hin]
    rfl
  rw [List.cons_append] at htake hdrop ⊢
  rw [rewrite, dif_pos (hds x List.mem_cons_self)]
  simp only [htake, hdrop, if_neg (Nat.not_lt.2 hlen)]
  split
  · next h => rw [hdefault h]
  · rfl

/-- What has been put out for `xs` is final, and what follows depends on what is withheld only. -/
def Splits (maxRun : Nat) (ys xs : List Tx) : Prop :=
  rewrite maxRun (xs ++ ys) =
    ((rewrite maxRun xs).1 ++ (rewrite maxRun ((rewrite maxRun xs).2 ++ ys)).1,
      (rewrite maxRun ((rewrite maxRun xs).2 ++ ys)).2)

variable {ys : List Tx}

/-- A character that is no digit stands for itself. -/
theorem splits_plain {x : Tx} (hx : x.digit = false) (h : Splits maxRun ys rest) :
    Splits maxRun ys (x :: rest) := by
  rw [Splits, List.cons_append, rewrite_plain hx, rewrite_plain hx, h]
  rfl

/-- A run that is too long is no badge. -/
theorem splits_block (hds : ∀ d ∈ ds, Tx.digit d = true) (hlen : ds.length = maxRun + 1)
    (h : Splits maxRun ys rest) : Splits maxRun ys (ds ++ rest) := by
  rw [Splits, List.append_assoc, rewrite_block hds hlen, rewrite_block hds hlen, h]
  simp only [List.append_assoc]

/-- In front of a complete token what follows does not matter any more. -/
theorem rewrite_token_append (hds : ∀ d ∈ ds, Tx.digit d = true) (hne : ds ≠ [])
    (hlen : ds.length ≤ maxRun) (hafter : ∀ y ∈ after.head?, Tx.digit y = false) (y : Tx)
    (htoken : kSuffix <+: bytes after) :
    rewrite maxRun (ds ++ (after ++ ys)) =
      (badge ds.length (after.getD (kSuffix.length - 1) y).2 ++ kSuffix ++
          (rewrite maxRun (after.drop kSuffix.length ++ ys)).1,
        (rewrite maxRun (after.drop kSuffix.length ++ ys)).2) := by
  have hafterlen : kSuffix.length ≤ after.length := by
    rw [← length_bytes]
    exact htoken.length_le
  have hsome : after ≠ [] :=
    List.ne_nil_of_length_pos (Nat.lt_of_lt_of_le (by decide) hafterlen)
  have htoken' : kSuffix <+: bytes (after ++ ys) := by
    rw [bytes_append]
    exact htoken.trans (List.prefix_append _ _)
  have hvalue : (after ++ ys).getD (kSuffix.length - 1) y =
      after.getD (kSuffix.length - 1) y := by
    rw [List.getD_eq_getElem?_getD, List.getD_eq_getElem?_getD,
      List.getElem?_append_left (Nat.lt_of_lt_of_le (by decide) hafterlen)]
  rw [rewrite_number hds hne hlen (by rwa [List.head?_append_of_ne_nil _ hsome]) y,
    if_pos htoken', hvalue, List.drop_append_of_le_length hafterlen]

/-- Digits that the suffix can no longer complete come out, and the rest is rewritten on its own. -/
theorem rewrite_passed_append (hds : ∀ d ∈ ds, Tx.digit d = true) (hne : ds ≠ [])
    (hlen : ds.length ≤ maxRun) (hafter : ∀ y ∈ after.head?, Tx.digit y = false) (y : Tx)
    (hincomplete : ¬ kSuffix <+: bytes after) (hdiffers : ¬ bytes after <+: kSuffix) :
    rewrite maxRun (ds ++ (after ++ ys)) =
      (bytes ds ++ (rewrite maxRun (after ++ ys)).1, (rewrite maxRun (after ++ ys)).2) := by
  have hsome : after ≠ [] := by
    rintro rfl
    exact hdiffers List.nil_prefix
  have hincomplete' : ¬ kSuffix <+: bytes (after ++ ys) := by
    rw [bytes_append]
    intro h
    exact (List.prefix_or_prefix_of_prefix h (List.prefix_append _ _)).elim hincomplete hdiffers
  have hdiffers' : ¬ bytes (after ++ ys) <+: kSuffix := by
    rw [bytes_append]
    exact fun h => hdiffers ((List.prefix_append _ _).trans h)
  rw [rewrite_number hds hne hlen (by rwa [List.head?_append_of_ne_nil _ hsome]) y,
    if_neg hincomplete', if_neg hdiffers']

/-- A number that the suffix follows is dropped, any other is kept. -/
theorem splits_number (hds : ∀ d ∈ ds, Tx.digit d = true) (hne : ds ≠ [])
    (hlen : ds.length ≤ maxRun) (hafter : ∀ y ∈ after.head?, Tx.digit y = false)
    (htail : kSuffix <+: bytes after → Splits maxRun ys (after.drop kSuffix.length))
    (hrest : Splits maxRun ys after) : Splits maxRun ys (ds ++ after) := by
  obtain ⟨x, -⟩ := List.exists_mem_of_ne_nil ds hne
  rw [Splits, rewrite_number hds hne hlen hafter x, List.append_assoc]
  split
  · next htoken =>
    rw [rewrite_token_append hds hne hlen hafter x htoken, htail htoken]
    simp only [List.append_assoc]
  · next hincomplete =>
    split
    · -- all of it is withheld
      rw [List.append_assoc]
      rfl
    · next hdiffers =>
      rw [rewrite_passed_append hds hne hlen hafter x hincomplete hdiffers, hrest]
      simp only [List.append_assoc]

end Rules

/-- The bytes behind a digit run begin with none. -/
theorem head?_dropWhile_digit (xs : List Tx) :
    ∀ y ∈ (xs.dropWhile Tx.digit).head?, Tx.digit y = false := by
  intro y hy
  have h := List.head?_dropWhile_not Tx.digit xs
  rw [hy] at h
  exact h

/-- **What has been put out is final**, and the rest depends on what is withheld only. -/
theorem rewrite_append (maxRun : Nat) (xs ys : List Tx) : Splits maxRun ys xs := by
  induction hn : xs.length using Nat.strong_induction_on generalizing xs with
  | _ n ih =>
    cases xs with
    | nil => simp [Splits, rewrite]
    | cons x rest =>
      cases hx : Tx.digit x with
      | false => exact splits_plain hx (ih rest.length (hn ▸ Nat.lt_succ_self _) rest rfl)
      | true =>
        have hshort := length_dropWhile_digit_lt rest hx
        have hafter := head?_dropWhile_digit (x :: rest)
        have hds : ∀ d ∈ (x :: rest).takeWhile Tx.digit, Tx.digit d = true :=
          fun d hd => List.mem_takeWhile_imp hd
        have hne : (x :: rest).takeWhile Tx.digit ≠ [] := by
          rw [List.takeWhile_cons_of_pos hx]
          exact List.cons_ne_nil _ _
        have hsplit := List.takeWhile_append_dropWhile (p := Tx.digit) (l := x :: rest)
        rw [hn] at hshort
        generalize (x :: rest).takeWhile Tx.digit = ds at hds hne hsplit
        generalize (x :: rest).dropWhile Tx.digit = after at hshort hafter hsplit
        rw [← hsplit, List.length_append] at hn
        rw [← hsplit]
        by_cases hlong : maxRun < ds.length
        · -- a block of the run passes
          have hblock : (ds.take (maxRun + 1)).length = maxRun + 1 := by
            rw [List.length_take]
            omega
          have hall : ∀ d ∈ ds.take (maxRun + 1), Tx.digit d = true :=
            fun d hd => hds d (List.mem_of_mem_take hd)
          rw [← List.take_append_drop (maxRun + 1) ds, List.append_assoc]
          refine splits_block hall hblock (ih _ ?_ _ rfl)
          rw [List.length_append, List.length_drop]
          omega
        · refine splits_number hds hne (Nat.le_of_not_lt hlong) hafter (fun _ => ih _ ?_ _ rfl)
            (ih _ hshort _ rfl)
          rw [List.length_drop]
          omega

/-- The filter's rewriting of a stream. -/
def rewriting (maxRun : Nat) : Rewriting Tx (BitVec 8) where
  out xs := (rewrite maxRun xs).1
  held xs := (rewrite maxRun xs).2
  held_nil := by rw [rewrite]
  out_nil := by rw [rewrite]
  out_append xs ys := by rw [rewrite_append]
  held_append xs ys := by rw [rewrite_append]

/-- What is withheld is an end of the stream. -/
theorem held_suffix (maxRun : Nat) (xs : List Tx) : (rewrite maxRun xs).2 <:+ xs := by
  fun_induction rewrite maxRun xs with
  | case1 => exact List.suffix_refl _
  | case2 x rest hx run hlong r ih => exact ih.trans (List.drop_suffix _ _)
  | case3 x rest hx run after hshort htoken r ih =>
    exact ih.trans ((List.drop_suffix _ _).trans (List.dropWhile_suffix _))
  | case4 x rest hx run after hshort htoken hheld => exact List.suffix_refl _
  | case5 x rest hx run after hshort htoken hheld r ih => exact ih.trans (List.dropWhile_suffix _)
  | case6 x rest hx r ih => exact ih.trans (List.suffix_cons _ _)

/-- A number with a beginning of the suffix behind it. -/
structure Withheld (maxRun : Nat) (ds p : List Tx) : Prop where
  /-- What is held begins with digits. -/
  digits : ∀ d ∈ ds, Tx.digit d = true
  /-- There is one. -/
  ne_nil : ds ≠ []
  /-- There are no more than the longest number has. -/
  length_le : ds.length ≤ maxRun
  /-- Then comes the start of the suffix. -/
  isPrefix : bytes p <+: kSuffix
  /-- But not all of it. -/
  incomplete : bytes p ≠ kSuffix

/-- What is withheld as a whole is such a number, or nothing. -/
theorem withheld_of_held {maxRun : Nat} {w : List Tx} (h : (rewrite maxRun w).2 = w) :
    w = [] ∨ ∃ ds p, w = ds ++ p ∧ Withheld maxRun ds p := by
  -- where anything passes, less is held back than there was
  have hshorter : ∀ {xs : List Tx}, xs.length < w.length → (rewrite maxRun xs).2 ≠ w := by
    intro xs hxs heq
    have := (held_suffix maxRun xs).length_le
    rw [heq] at this
    omega
  cases w with
  | nil => exact Or.inl rfl
  | cons x rest =>
    cases hx : Tx.digit x with
    | false =>
      rw [rewrite_plain hx] at h
      exact absurd h (hshorter (Nat.lt_succ_self _))
    | true =>
      have hshort := length_dropWhile_digit_lt rest hx
      have hne : (x :: rest).takeWhile Tx.digit ≠ [] := by
        rw [List.takeWhile_cons_of_pos hx]
        exact List.cons_ne_nil _ _
      rw [rewrite, dif_pos hx] at h
      dsimp only at h
      split at h
      · refine absurd h (hshorter ?_)
        rw [List.length_drop, List.length_cons]
        omega
      · next hlen =>
        split at h
        · refine absurd h (hshorter ?_)
          rw [List.length_drop]
          omega
        · next htoken =>
          split at h
          · next hpre =>
            refine Or.inr ⟨_, _, List.takeWhile_append_dropWhile.symm,
              fun d hd => List.mem_takeWhile_imp hd, hne, Nat.le_of_not_lt hlen, hpre, ?_⟩
            intro heq
            exact htoken (heq ▸ List.prefix_refl _)
          · exact absurd h (hshorter hshort)

/-! ## The states -/

/-- The state of the filter that withholds this. -/
def stateOf (w : List Tx) : BadgeFilter where
  state :=
    if w = [] then .normal else if w.dropWhile Tx.digit = [] then .digits else .suffix
  pend := bytes (w.takeWhile Tx.digit)
  suf := bytes (w.dropWhile Tx.digit)

/-- No byte of a beginning of the suffix is a digit. -/
theorem plain_of_prefix {p : List Tx} (hp : bytes p <+: kSuffix) : ∀ y ∈ p, Tx.digit y = false := by
  intro y hy
  have hmem : y.1 ∈ kSuffix := hp.subset (List.mem_map_of_mem hy)
  have hall : ∀ b ∈ kSuffix, isDigit b = false := by decide
  exact hall _ hmem

/-- The state of the filter while it holds that much. -/
theorem stateOf_append {ds p : List Tx} (hds : ∀ d ∈ ds, Tx.digit d = true) (hne : ds ≠ [])
    (hp : ∀ y ∈ p, Tx.digit y = false) :
    stateOf (ds ++ p) =
      { state := if p = [] then .digits else .suffix, pend := bytes ds, suf := bytes p } := by
  obtain ⟨htake, hdrop⟩ := span_digits hds fun y hy => hp y (List.mem_of_mem_head? hy)
  have hsome : ds ++ p ≠ [] := fun h => hne (List.append_eq_nil_iff.1 h).1
  rw [stateOf, htake, hdrop, if_neg hsome]

namespace Withheld

variable {maxRun : Nat} {ds p : List Tx}

/-- What follows the digits are no digits. -/
theorem plain (h : Withheld maxRun ds p) : ∀ y ∈ p, Tx.digit y = false := plain_of_prefix h.isPrefix

/-- What is withheld produces no output and stays held. -/
theorem rewrite_eq (h : Withheld maxRun ds p) : rewrite maxRun (ds ++ p) = ([], ds ++ p) := by
  obtain ⟨x, ds', hcons⟩ := List.exists_cons_of_ne_nil h.ne_nil
  have hincomplete : ¬ kSuffix <+: bytes p := fun hsuf =>
    h.incomplete (h.isPrefix.eq_of_length_le hsuf.length_le)
  have hhead : ∀ y ∈ p.head?, Tx.digit y = false := fun y hy =>
    h.plain y (List.mem_of_mem_head? hy)
  rw [rewrite_number h.digits h.ne_nil h.length_le hhead x, if_neg hincomplete, if_pos h.isPrefix]

/-- A digit that is not the last of a block is withheld with the run. -/
theorem single {x : Tx} (hx : x.digit = true) (hmax : 0 < maxRun) : Withheld maxRun [x] [] where
  digits d hd := by rwa [List.mem_singleton.1 hd]
  ne_nil := List.cons_ne_nil _ _
  length_le := hmax
  isPrefix := List.nil_prefix
  incomplete := by decide

end Withheld

/-! ## Step by step -/

/-- From its normal state the filter does with a byte what is to be done with it alone. -/
theorem emit_fresh (mhz : BitVec 32) (fuel : Nat) (x : Tx) :
    badgeTxEmitN mhz (fuel + 1) {} x.1 =
      some (stateOf (rewrite kMaxRun [x]).2, (rewrite kMaxRun [x]).1) := by
  rw [badgeTxEmitN_normal mhz fuel x.1 rfl]
  cases hx : Tx.digit x with
  | false =>
    have hplain : isDigit x.1 = false := hx
    rw [rewrite_plain hx, rewrite, hplain, if_neg Bool.false_ne_true]
    rfl
  | true =>
    have hdigit : isDigit x.1 = true := hx
    have hheld : Withheld kMaxRun [x] [] := .single hx (by decide)
    have hrewrite : rewrite kMaxRun [x] = ([], [x]) := hheld.rewrite_eq
    have hstate := stateOf_append (p := []) hheld.digits hheld.ne_nil (fun y hy => by cases hy)
    rw [hrewrite, hdigit, if_pos rfl, show [x] = [x] ++ [] from rfl, hstate]
    rfl

/-- Bytes that are no digits pass one after the other, and the byte after them is seen alone. -/
theorem feedAll_fresh (mhz : BitVec 32) (fuel : Nat) {q : List Tx}
    (hq : ∀ y ∈ q, Tx.digit y = false) (x : Tx) :
    feedAll (badgeTxEmitN mhz (fuel + 1)) {} (bytes q ++ [x.1]) =
      some (stateOf (rewrite kMaxRun (q ++ [x])).2, (rewrite kMaxRun (q ++ [x])).1) := by
  induction q with
  | nil =>
    rw [List.nil_append, feedAll.eq_def]
    simp only [bytes, List.map_nil, List.nil_append, emit_fresh, Option.bind_some, feedAll,
      Option.map_some, List.append_nil]
  | cons y q ih =>
    have hy : Tx.digit y = false := hq y List.mem_cons_self
    have hfirst := emit_fresh mhz fuel y
    rw [rewrite_plain hy, rewrite] at hfirst
    have hstate : stateOf [] = {} := rfl
    have hrest := ih fun z hz => hq z (List.mem_cons_of_mem _ hz)
    simp only [bytes, List.map_cons, List.cons_append, feedAll] at hrest ⊢
    rw [hfirst, Option.bind_some, hstate, hrest, Option.map_some, rewrite_plain hy]
    rfl

/-- The suffix part does with a byte what is to be done with it behind what is withheld. -/
theorem badgeSuffix_eq {ds p : List Tx} (h : Withheld kMaxRun ds p) (x : Tx)
    (hx : ∀ y ∈ (p ++ [x]).head?, Tx.digit y = false) (fuel : Nat) {s : BadgeFilter}
    (hs : s = { state := .suffix, pend := bytes ds, suf := bytes p }) :
    badgeSuffix (feedAll (badgeTxEmitN x.2 (fuel + 1))) x.2 s x.1 =
      some (stateOf (rewrite kMaxRun (ds ++ (p ++ [x]))).2,
        (rewrite kMaxRun (ds ++ (p ++ [x]))).1) := by
  have hsuf : s.suf ++ [x.1] = bytes (p ++ [x]) := by
    rw [hs, bytes_append]
    rfl
  have hpend : s.pend = bytes ds := by rw [hs]
  have hshort : (bytes p).length < kSuffix.length := by
    refine Nat.lt_of_le_of_ne h.isPrefix.length_le fun heq => h.incomplete ?_
    exact h.isPrefix.eq_of_length heq
  rw [badgeSuffix]
  simp only [hsuf, hpend]
  by_cases hpre : bytes (p ++ [x]) <+: kSuffix
  · rw [if_pos hpre]
    by_cases hfull : (bytes (p ++ [x])).length = kSuffix.length
    · -- the token is complete, and its clock rate is that of its last byte
      have heq := hpre.eq_of_length hfull
      rw [if_pos hfull, rewrite_number h.digits h.ne_nil h.length_le hx x,
        if_pos (heq ▸ List.prefix_refl _)]
      have hlen : (p ++ [x]).length = kSuffix.length := by rw [← length_bytes, hfull]
      have hlast : (p ++ [x]).getD (kSuffix.length - 1) x = x := by
        rw [List.length_append, List.length_singleton] at hlen
        have hp : kSuffix.length - 1 = p.length := by omega
        rw [hp, List.getD_eq_getElem?_getD, List.getElem?_concat_length, Option.getD_some]
      have hrest : (p ++ [x]).drop kSuffix.length = [] := List.drop_of_length_le hlen.le
      rw [hlast, hrest, rewrite, heq, List.append_nil, length_bytes]
      rfl
    · have hnext : Withheld kMaxRun ds (p ++ [x]) :=
        ⟨h.digits, h.ne_nil, h.length_le, hpre, fun heq => hfull (congrArg _ heq)⟩
      rw [if_neg hfull, hnext.rewrite_eq, stateOf_append h.digits h.ne_nil hnext.plain,
        if_neg (List.append_ne_nil_of_right_ne_nil _ (List.cons_ne_nil _ _)), hs]
  · -- the number passes, and the bytes behind it are fed again
    have hincomplete : ¬ kSuffix <+: bytes (p ++ [x]) := by
      intro hsuffix
      have hlen := hsuffix.length_le
      rw [bytes_append, List.length_append] at hlen
      refine hpre (hsuffix.eq_of_length ?_ ▸ List.prefix_refl _)
      rw [bytes_append, List.length_append]
      simp only [bytes, List.length_map, List.length_cons, List.length_nil] at *
      omega
    rw [if_neg hpre, rewrite_number h.digits h.ne_nil h.length_le hx x, if_neg hincomplete,
      if_neg hpre, bytes_append]
    rw [show bytes [x] = [x.1] from rfl, feedAll_fresh x.2 fuel h.plain x, Option.map_some]

/-- **Step by step.** The filter does with a byte what is to be done with it behind what is
withheld. -/
theorem badgeTxEmit_stateOf {w : List Tx} (h : (rewrite kMaxRun w).2 = w) (x : Tx) :
    badgeTxEmit (stateOf w) x =
      (stateOf (rewrite kMaxRun (w ++ [x])).2, (rewrite kMaxRun (w ++ [x])).1) := by
  refine badgeTxEmit_eq ?_
  obtain rfl | ⟨ds, p, rfl, hw⟩ := withheld_of_held h
  · exact emit_fresh x.2 1 x
  rw [stateOf_append hw.digits hw.ne_nil hw.plain, List.append_assoc]
  by_cases hp : p = []
  · subst hp
    rw [if_pos rfl, badgeTxEmitN]
    simp only [List.nil_append]
    cases hx : isDigit x.1 with
    | true =>
      rw [if_pos rfl]
      have hds : ∀ d ∈ ds ++ [x], Tx.digit d = true := by
        intro d hd
        obtain hd | hd := List.mem_append.1 hd
        · exact hw.digits d hd
        · rw [List.mem_singleton.1 hd]
          exact hx
      by_cases hmax : (bytes ds).length < kMaxRun
      · -- the run grows
        rw [length_bytes] at hmax
        have hnext : Withheld kMaxRun (ds ++ [x]) [] :=
          ⟨hds, List.append_ne_nil_of_right_ne_nil _ (List.cons_ne_nil _ _),
            by rw [List.length_append]; exact hmax, List.nil_prefix, by decide⟩
        have hrewrite := hnext.rewrite_eq
        have hstate := stateOf_append hds hnext.ne_nil hnext.plain
        rw [List.append_nil] at hrewrite hstate
        rw [length_bytes, if_pos hmax, hrewrite, hstate, bytes_append]
        rfl
      · -- the run is too long for a number
        have hfull : ds.length = kMaxRun :=
          Nat.le_antisymm hw.length_le (by rw [length_bytes] at hmax; exact Nat.le_of_not_lt hmax)
        have hblock : rewrite kMaxRun (ds ++ [x] ++ []) = _ :=
          rewrite_block hds (by rw [List.length_append, hfull]; rfl)
        rw [List.append_nil, rewrite, List.append_nil] at hblock
        rw [if_neg hmax, hblock, badgeFlushPending, bytes_append]
        simp only [bytes, List.map_nil, List.append_nil]
        rfl
    | false =>
      rw [if_neg Bool.false_ne_true]
      exact badgeSuffix_eq hw x (fun y hy => by cases hy; exact hx) 0 rfl
  · rw [if_neg hp, badgeTxEmitN]
    refine badgeSuffix_eq hw x (fun y hy => ?_) (bytes p).length rfl
    rw [List.head?_append_of_ne_nil _ hp] at hy
    exact hw.plain y (List.mem_of_mem_head? hy)

/-! ## The main results -/

/-- No run of the stream is longer. -/
def RunsWithin (maxRun : Nat) (xs : List Tx) : Prop :=
  ∀ ds, ds <:+: xs → (∀ d ∈ ds, Tx.digit d = true) → ds.length ≤ maxRun

/-- The bound on the runs says nothing about a stream without a longer one. -/
theorem rewrite_eq_of_runsWithin {m n : Nat} (xs : List Tx) (hm : RunsWithin m xs)
    (hn : RunsWithin n xs) : rewrite m xs = rewrite n xs := by
  have hrun : ∀ {k ys}, RunsWithin k ys → ¬ k < (ys.takeWhile Tx.digit).length := by
    intro k ys h
    exact Nat.not_lt.2 (h _ (List.takeWhile_prefix _).isInfix fun d hd =>
      List.mem_takeWhile_imp hd)
  have hsuffix : ∀ {k ys zs}, RunsWithin k ys → zs <:+ ys → RunsWithin k zs :=
    fun h hzs ds hds => h ds (hds.trans hzs.isInfix)
  fun_induction rewrite m xs with
  | case1 => rw [rewrite]
  | case2 x rest hx run hlong r ih => exact absurd hlong (hrun hm)
  | case3 x rest hx run after hshort htoken r ih =>
    have hend : after.drop kSuffix.length <:+ x :: rest :=
      (List.drop_suffix _ _).trans (List.dropWhile_suffix _)
    rw [rewrite, dif_pos hx]
    simp only [if_neg (hrun hn)]
    rw [if_pos htoken, ← ih (hsuffix hm hend) (hsuffix hn hend)]
  | case4 x rest hx run after hshort htoken hheld =>
    rw [rewrite, dif_pos hx]
    simp only [if_neg (hrun hn)]
    rw [if_neg htoken, if_pos hheld]
  | case5 x rest hx run after hshort htoken hheld r ih =>
    have hend : after <:+ x :: rest := List.dropWhile_suffix _
    rw [rewrite, dif_pos hx]
    simp only [if_neg (hrun hn)]
    rw [if_neg htoken, if_neg hheld, ← ih (hsuffix hm hend) (hsuffix hn hend)]
  | case6 x rest hx r ih =>
    have hend : rest <:+ x :: rest := List.suffix_cons _ _
    rw [rewrite, dif_neg hx, ← ih (hsuffix hm hend) (hsuffix hn hend)]

/-- **The badge filter.** For every stream it puts out the rewritten stream, withholds what may
still become a token, and its recursion ends. On a stream whose digit runs are no longer than what
the filter withholds, every number in front of " MHz" is replaced. -/
theorem badge_filter (xs : List Tx) :
    (Rewriting.transduce badgeTxEmit {} xs).2 = (rewrite kMaxRun xs).1 ∧
      (Rewriting.transduce badgeTxEmit {} xs).1.pend ++
        (Rewriting.transduce badgeTxEmit {} xs).1.suf = bytes (rewrite kMaxRun xs).2 ∧
      (rewrite kMaxRun xs).2 <:+ xs ∧
      (RunsWithin kMaxRun xs → rewrite kMaxRun xs = rewrite xs.length xs) ∧
      ∀ (s : BadgeFilter) (x : Tx),
        (badgeTxEmitN x.2 (s.suf.length + 2) s x.1).isSome = true := by
  have hrun := (rewriting kMaxRun).run_eq (fun _ x h => badgeTxEmit_stateOf h x) xs
  have hempty : stateOf [] = {} := rfl
  rw [hempty] at hrun
  rw [hrun]
  refine ⟨rfl, ?_, held_suffix kMaxRun xs, fun hruns => ?_, fun s x => ?_⟩
  · show bytes _ ++ bytes _ = _
    rw [← bytes_append, List.takeWhile_append_dropWhile]
    rfl
  · exact rewrite_eq_of_runsWithin xs hruns fun ds hds _ => hds.length_le
  · obtain ⟨r, hr, -⟩ := badgeTxEmitN_total x.2 _ s x.1 (Nat.le_refl _)
    rw [hr]
    rfl

/-- A number of 25 digits in front of " MHz". -/
def longNumber : List Tx := List.replicate 25 (0x39, 1000) ++ kSuffix.map (·, 1000)

/-- The filter lets it pass, where the number is to be replaced. -/
theorem long_number_passes :
    (Rewriting.transduce badgeTxEmit {} longNumber).2 = bytes longNumber ∧
      (rewrite longNumber.length longNumber).1 =
        List.replicate 21 0x20 ++ [0x31, 0x30, 0x30, 0x30] ++ kSuffix := by
  refine ⟨by decide, ?_⟩
  have hdigits : ∀ x ∈ List.replicate 25 ((0x39, 1000) : Tx), Tx.digit x = true := by
    intro x hx
    rw [List.eq_of_mem_replicate hx]
    rfl
  have hblank : ∀ y ∈ (kSuffix.map fun b => (b, (1000 : BitVec 32))).head?,
      Tx.digit y = false := by
    intro y hy
    obtain rfl : (0x20, 1000) = y := Option.some.inj hy
    rfl
  have hnumber : rewrite 29 longNumber = _ :=
    rewrite_number hdigits (by decide) (by decide) hblank (0x39, 1000)
  have hrest : (kSuffix.map fun b => (b, (1000 : BitVec 32))).drop kSuffix.length = [] := rfl
  rw [if_pos (by decide), hrest, rewrite] at hnumber
  rw [show longNumber.length = 29 from rfl, hnumber]
  decide

end BadgeFilter

end EmulatR

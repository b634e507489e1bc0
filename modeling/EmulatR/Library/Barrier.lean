import Mathlib.Algebra.Ring.Nat
import Mathlib.Data.List.Forall2
import Mathlib.Logic.Relation

/-! # Workers that meet at a barrier

A fixed set of workers runs in rounds. In a round every worker performs a list of private actions,
each an atomic change of its own state, and then arrives at a barrier; when all have arrived, one
completion function runs alone on the shared state and on the workers, raises a `done` flag if the
run is over, and releases everybody. A released worker reads the flag and either leaves or starts
the next round.

The actions of different workers interleave freely. Because an action touches only its own worker,
a round computes what running the workers one after the other computes (`System.round`), and the
whole system computes what the loop over `round` computes:

* `System.RunsTo` is that loop: test `stop`, and if it is false run one round and repeat;
* `System.endsAs_of_runsTo` — if the loop ends after one unconditional round, every interleaving
  ends, none gets stuck on the way, and all end in the loop's result;
* `System.runsTo_of_endsAs` — the converse. -/

namespace EmulatR.Library.Barrier

universe u v

variable {α : Type u} {β : Type v}

/-- The workers' programs, the completion function and the test it ends with. -/
structure System (α : Type u) (β : Type v) where
  /-- The private actions of a worker in one round. -/
  plan : β → α → List (α → α)
  /-- What the last arrival does while everybody waits. -/
  complete : β × List α → β × List α
  /-- The run is over. -/
  stop : β × List α → Bool
  /-- Nobody joins and nobody is removed. -/
  complete_length : ∀ p, (complete p).2.length = p.2.length

/-- Where a worker stands in its loop. -/
inductive Phase (α : Type u)
  /-- Before the test of the flag. -/
  | top
  /-- In a round, with these actions still to perform. -/
  | running (rest : List (α → α))
  /-- Waiting at the barrier. -/
  | arrived
  /-- Out of the loop. -/
  | exited

/-- The shared state, the workers with their phases, and the flag. -/
structure Config (α : Type u) (β : Type v) where
  /-- The shared state. -/
  shared : β
  /-- Every worker and its phase. -/
  workers : List (α × Phase α)
  /-- The flag that ends the run. -/
  done : Bool

namespace Config

/-- All workers at the top of their loops. -/
def released (p : β × List α) (done : Bool) : Config α β :=
  ⟨p.1, p.2.map fun a => (a, Phase.top), done⟩

/-- The shared state and the workers, without the phases. -/
def contents (c : Config α β) : β × List α := (c.shared, c.workers.map Prod.fst)

/-- Every worker has left its loop. -/
def Final (c : Config α β) : Prop := ∀ w ∈ c.workers, w.2 = Phase.exited

end Config

namespace System

variable (S : System α β)

/-- One atomic step of some worker, or the completion. The worker is any element of the list, so a
run is any interleaving. -/
inductive Step : Config α β → Config α β → Prop
  /-- A worker finds the flag down and starts a round. -/
  | enter {b : β} {l₁ l₂ : List (α × Phase α)} {a : α} :
      Step ⟨b, l₁ ++ (a, .top) :: l₂, false⟩ ⟨b, l₁ ++ (a, .running (S.plan b a)) :: l₂, false⟩
  /-- A worker finds the flag up and leaves. -/
  | leave {b : β} {l₁ l₂ : List (α × Phase α)} {a : α} :
      Step ⟨b, l₁ ++ (a, .top) :: l₂, true⟩ ⟨b, l₁ ++ (a, .exited) :: l₂, true⟩
  /-- A worker performs its next action. -/
  | act {b : β} {l₁ l₂ : List (α × Phase α)} {a : α} {f : α → α} {fs : List (α → α)} {dn : Bool} :
      Step ⟨b, l₁ ++ (a, .running (f :: fs)) :: l₂, dn⟩ ⟨b, l₁ ++ (f a, .running fs) :: l₂, dn⟩
  /-- A worker with nothing left to do arrives. -/
  | arrive {b : β} {l₁ l₂ : List (α × Phase α)} {a : α} {dn : Bool} :
      Step ⟨b, l₁ ++ (a, .running []) :: l₂, dn⟩ ⟨b, l₁ ++ (a, .arrived) :: l₂, dn⟩
  /-- With everybody there, the completion runs and releases all. -/
  | complete {b : β} {as : List α} {dn : Bool} :
      Step ⟨b, as.map fun a => (a, .arrived), dn⟩
        (.released (S.complete (b, as)) (dn || S.stop (S.complete (b, as))))

/-- What a list of actions makes of a worker. -/
def perform (fs : List (α → α)) (a : α) : α := fs.foldl (fun x f => f x) a

/-- A worker after its actions of one round. -/
def stepped (b : β) (a : α) : α := perform (S.plan b a) a

/-- One round, worker after worker, then the completion. -/
def round (p : β × List α) : β × List α := S.complete (p.1, p.2.map (S.stepped p.1))

/-- A round keeps the number of workers. -/
theorem round_length (p : β × List α) : (S.round p).2.length = p.2.length := by
  simp [round, S.complete_length]

/-- The sequential loop: run rounds until the test holds. -/
inductive RunsTo : β × List α → β × List α → Prop
  /-- The test holds. -/
  | stop {p : β × List α} : S.stop p = true → RunsTo p p
  /-- One round, then the loop again. -/
  | next {p p' : β × List α} : S.stop p = false → RunsTo (S.round p) p' → RunsTo p p'

/-- Every interleaving from `c` ends, none gets stuck, and all end in `p`. -/
structure EndsAs (c : Config α β) (p : β × List α) : Prop where
  /-- There is no infinite run. -/
  terminates : Acc (fun c' c => S.Step c c') c
  /-- A configuration without a step is final. -/
  progress : ∀ c', Relation.ReflTransGen S.Step c c' → c'.Final ∨ ∃ c'', S.Step c' c''
  /-- Every final configuration has the same contents. -/
  result : ∀ c', Relation.ReflTransGen S.Step c c' → c'.Final → c'.contents = p

/-! ## What holds inside a round -/

variable {S} {b : β} {p p' p₀ : β × List α} {c c' : Config α β}

/-- How far worker `w` has come from its state `a` at the start of the round. -/
def Progress (S : System α β) (b : β) (a : α) (w : α × Phase α) : Prop :=
  match w.2 with
  | .top => w.1 = a
  | .running rest => perform rest w.1 = S.stepped b a
  | .arrived => w.1 = S.stepped b a
  | .exited => False

/-- The configuration is inside the round that started from `p`. -/
structure InRound (S : System α β) (p : β × List α) (c : Config α β) : Prop where
  /-- Nobody touches the shared state. -/
  shared : c.shared = p.1
  /-- The flag is down. -/
  done : c.done = false
  /-- Every worker is on its way from its own starting state. -/
  workers : List.Forall₂ (Progress S p.1) p.2 c.workers

/-- The run is over and the workers are leaving. -/
structure Leaving (p : β × List α) (c : Config α β) : Prop where
  /-- Nobody touches the shared state. -/
  shared : c.shared = p.1
  /-- The flag is up. -/
  done : c.done = true
  /-- No worker changes any more. -/
  workers : List.Forall₂ (fun a w => w.1 = a ∧ (w.2 = Phase.top ∨ w.2 = Phase.exited)) p.2 c.workers

/-- The configuration belongs to the stretch that begins with the contents `p`. -/
def Entered (S : System α β) (p : β × List α) (c : Config α β) : Prop :=
  (S.stop p = false ∧ InRound S p c) ∨ (S.stop p = true ∧ Leaving p c)

/-- A released configuration is at the start of its round. -/
theorem inRound_released : InRound S p (.released p false) := by
  refine ⟨rfl, rfl, ?_⟩
  rw [Config.released, List.forall₂_map_right_iff]
  exact List.forall₂_same.mpr fun a _ => rfl

/-- After the completion either a round starts or the workers leave. -/
theorem entered_released : Entered S p (.released p (S.stop p)) := by
  cases h : S.stop p with
  | false => exact Or.inl ⟨h, inRound_released⟩
  | true =>
    refine Or.inr ⟨h, rfl, rfl, ?_⟩
    rw [Config.released, List.forall₂_map_right_iff]
    exact List.forall₂_same.mpr fun a _ => ⟨rfl, Or.inl rfl⟩

/-- Replacing one element on the right of a pointwise relation. -/
theorem forall₂_replace {R : α → α × Phase α → Prop} {as : List α} {l₁ l₂ : List (α × Phase α)}
    {w w' : α × Phase α} (h : List.Forall₂ R as (l₁ ++ w :: l₂)) (hw : ∀ a, R a w → R a w') :
    List.Forall₂ R as (l₁ ++ w' :: l₂) := by
  induction l₁ generalizing as with
  | nil =>
    cases h with
    | cons ha hrest => exact .cons (hw _ ha) hrest
  | cons x l₁ ih =>
    cases h with
    | cons ha hrest => exact .cons ha (ih hrest)

/-- A pointwise relation on a nonempty list relates some pair. -/
theorem forall₂_exists {R : α → α × Phase α → Prop} {as : List α} {ws : List (α × Phase α)}
    (h : List.Forall₂ R as ws) (hne : as ≠ []) : ∃ a, ∃ w ∈ ws, R a w := by
  cases h with
  | nil => exact absurd rfl hne
  | cons ha _ => exact ⟨_, _, List.mem_cons_self, ha⟩

/-- A pointwise relation reaches every element on its right. -/
theorem exists_left {R : α → α × Phase α → Prop} {as : List α} {ws : List (α × Phase α)}
    (h : List.Forall₂ R as ws) {w : α × Phase α} (hw : w ∈ ws) : ∃ a, a ∈ as ∧ R a w := by
  induction h with
  | nil => exact absurd hw List.not_mem_nil
  | cons ha _ ih =>
    rcases List.mem_cons.mp hw with rfl | hw
    · exact ⟨_, List.mem_cons_self, ha⟩
    · obtain ⟨a, hmem, ha⟩ := ih hw
      exact ⟨a, List.mem_cons_of_mem _ hmem, ha⟩

/-- What a worker still has to do before it waits or leaves. -/
def work (S : System α β) (b : β) (w : α × Phase α) : Nat :=
  match w.2 with
  | .top => 2 + (S.plan b w.1).length
  | .running rest => 1 + rest.length
  | .arrived => 0
  | .exited => 0

/-- The work left in a configuration. Every step of a worker lowers it. -/
def load (S : System α β) (c : Config α β) : Nat := (c.workers.map (work S c.shared)).sum

/-- When one worker has less to do and the others are as before, less is left in all. -/
theorem load_replace {l₁ l₂ : List (α × Phase α)} {w w' : α × Phase α} {dn dn' : Bool}
    (h : work S b w' < work S b w) :
    load S ⟨b, l₁ ++ w' :: l₂, dn'⟩ < load S ⟨b, l₁ ++ w :: l₂, dn⟩ := by
  simp only [load, List.map_append, List.map_cons, List.sum_append, List.sum_cons]
  omega

/-- **One step inside a round** stays in the round, or it is the completion and ends it. -/
theorem InRound.step (h : InRound S p c) (hs : S.Step c c') :
    (InRound S p c' ∧ load S c' < load S c) ∨
      c' = .released (S.round p) (S.stop (S.round p)) := by
  obtain ⟨hb, hdn, hw⟩ := h
  cases hs with
  | enter =>
    obtain rfl := hb
    refine Or.inl ⟨⟨rfl, rfl, forall₂_replace hw ?_⟩, load_replace ?_⟩
    -- entering, the worker has done nothing, and what is planned is the whole round
    · rintro a rfl
      rfl
    · simp only [work]
      omega
  | leave => exact absurd hdn.symm Bool.false_ne_true
  | act =>
    obtain rfl := hb
    -- performing the head of the list now or later comes to the same
    refine Or.inl ⟨⟨rfl, hdn, forall₂_replace hw fun a ha => ha⟩, load_replace ?_⟩
    simp [work]
  | arrive =>
    obtain rfl := hb
    refine Or.inl ⟨⟨rfl, hdn, forall₂_replace hw fun a ha => ha⟩, load_replace ?_⟩
    simp [work]
  | @complete b as dn =>
    -- everybody has arrived, so each worker is the stepped version of where it started
    right
    obtain rfl : dn = false := hdn
    obtain rfl : b = p.1 := hb
    have has : p.2.map (S.stepped p.1) = as := by
      rw [List.forall₂_map_right_iff] at hw
      rw [← List.forall₂_eq_eq_eq, List.forall₂_map_left_iff]
      exact hw.imp fun a a' h => Eq.symm h
    rw [← has, Bool.false_or]
    rfl

/-- Once the flag is up nothing changes but the phases. -/
theorem Leaving.step (h : Leaving p c) (hne : p.2 ≠ []) (hs : S.Step c c') :
    Leaving p c' ∧ load S c' < load S c := by
  obtain ⟨hb, hdn, hw⟩ := h
  cases hs with
  | enter => exact absurd hdn Bool.false_ne_true
  | leave =>
    refine ⟨⟨hb, rfl, forall₂_replace hw fun a ha => ⟨ha.1, Or.inr rfl⟩⟩, load_replace ?_⟩
    simp only [work]
    omega
  | act =>
    -- no worker is inside a round any more
    refine ⟨⟨hb, hdn, forall₂_replace hw fun a ha => by simp at ha⟩, load_replace ?_⟩
    simp [work]
  | arrive =>
    -- no worker is inside a round any more
    refine ⟨⟨hb, hdn, forall₂_replace hw fun a ha => by simp at ha⟩, load_replace ?_⟩
    simp [work]
  | complete =>
    -- a waiting worker would be neither at the top nor out
    obtain ⟨a, w, hmem, -, hw⟩ := forall₂_exists hw hne
    obtain ⟨a', -, rfl⟩ := List.mem_map.mp hmem
    simp at hw

/-! ## The run, round by round -/

/-- The contents a run can have at the start of a stretch: after the first round, and after every
further round that the test let through. -/
inductive Rounds (S : System α β) (p₀ : β × List α) : β × List α → Prop
  /-- The first round is not tested for. -/
  | first : Rounds S p₀ (S.round p₀)
  /-- Another round while the test is false. -/
  | next {p : β × List α} : Rounds S p₀ p → S.stop p = false → Rounds S p₀ (S.round p)

/-- Rounds keep the number of workers. -/
theorem Rounds.length (h : Rounds S p₀ p) : p.2.length = p₀.2.length := by
  induction h with
  | first => exact S.round_length p₀
  | next _ _ ih => rw [S.round_length, ih]

/-- After some rounds there still are workers. -/
theorem Rounds.ne_nil (h : Rounds S p₀ p) (hne : p₀.2 ≠ []) : p.2 ≠ [] := by
  intro hp
  have := h.length
  simp [hp] at this
  exact hne (List.eq_nil_of_length_eq_zero this.symm)

/-- The invariant of every interleaving: it is in its first round, or in a stretch that a later
round began. -/
def Inv (S : System α β) (p₀ : β × List α) (c : Config α β) : Prop :=
  InRound S p₀ c ∨ ∃ p, Rounds S p₀ p ∧ Entered S p c

/-- **One step keeps the invariant.** -/
theorem Inv.step (hne : p₀.2 ≠ []) (h : Inv S p₀ c) (hs : S.Step c c') : Inv S p₀ c' := by
  rcases h with h | ⟨p, hp, ⟨hstop, h⟩ | ⟨hstop, h⟩⟩
  -- a step inside a round stays there or releases everybody into the next stretch
  · rcases h.step hs with ⟨h, -⟩ | rfl
    · exact Or.inl h
    · exact Or.inr ⟨_, .first, entered_released⟩
  · rcases h.step hs with ⟨h, -⟩ | rfl
    · exact Or.inr ⟨p, hp, Or.inl ⟨hstop, h⟩⟩
    · exact Or.inr ⟨_, .next hp hstop, entered_released⟩
  · exact Or.inr ⟨p, hp, Or.inr ⟨hstop, (h.step (hp.ne_nil hne) hs).1⟩⟩

/-- The invariant holds after any interleaving. -/
theorem Inv.reach (hne : p₀.2 ≠ [])
    (hr : Relation.ReflTransGen S.Step (.released p₀ false) c) : Inv S p₀ c := by
  induction hr with
  | refl => exact Or.inl inRound_released
  | tail _ hs ih => exact ih.step hne hs

/-- Inside a round nobody has left, so a final configuration is not inside a round. -/
theorem InRound.not_final (h : InRound S p c) (hne : p.2 ≠ []) : ¬ c.Final := by
  intro hfin
  obtain ⟨a, w, hmem, hw⟩ := forall₂_exists h.workers hne
  -- a worker that has left makes no progress in a round
  rw [Progress, hfin w hmem] at hw
  exact hw

/-- While the workers leave, the contents are those the last round left. -/
theorem Leaving.contents (h : Leaving p c) : c.contents = p := by
  have hw : c.workers.map Prod.fst = p.2 := by
    rw [← List.forall₂_eq_eq_eq, List.forall₂_map_left_iff]
    exact (h.workers.imp fun a w hw => hw.1).flip
  rw [Config.contents, h.shared, hw]

/-- A final configuration has the contents of some round that met the test. -/
theorem Inv.final (hne : p₀.2 ≠ []) (h : Inv S p₀ c) (hfin : c.Final) :
    Rounds S p₀ c.contents ∧ S.stop c.contents = true := by
  rcases h with h | ⟨p, hp, ⟨-, h⟩ | ⟨hstop, h⟩⟩
  · exact absurd hfin (h.not_final hne)
  · exact absurd hfin (h.not_final (hp.ne_nil hne))
  · rw [h.contents]
    exact ⟨hp, hstop⟩

/-! ## No interleaving gets stuck -/

/-- In a list of phases either somebody can move or everybody waits, provided nobody has left. -/
theorem InRound.progress (h : InRound S p c) : ∃ c', S.Step c c' := by
  obtain ⟨b, ws, dn⟩ := c
  obtain rfl : dn = false := h.done
  by_cases harr : ∀ w ∈ ws, w.2 = Phase.arrived
  · -- everybody waits: the completion runs
    have hws : ws = (ws.map Prod.fst).map fun a => (a, Phase.arrived) := by
      rw [List.map_map]
      refine (List.map_id ws).symm.trans (List.map_congr_left fun w hw => ?_)
      exact Prod.ext rfl (harr w hw)
    rw [hws]
    exact ⟨_, .complete⟩
  · push Not at harr
    obtain ⟨⟨a, ph⟩, hmem, hne⟩ := harr
    obtain ⟨l₁, l₂, rfl⟩ := List.append_of_mem hmem
    cases ph with
    | top => exact ⟨_, .enter⟩
    | running rest =>
      cases rest with
      | nil => exact ⟨_, .arrive⟩
      | cons f fs => exact ⟨_, .act⟩
    | arrived => exact absurd rfl hne
    | exited =>
      obtain ⟨a₀, -, hw⟩ := exists_left h.workers hmem
      exact hw.elim

/-- While the workers leave nobody is stuck. -/
theorem Leaving.progress (h : Leaving p c) : c.Final ∨ ∃ c', S.Step c c' := by
  obtain ⟨b, ws, dn⟩ := c
  obtain rfl : dn = true := h.done
  by_cases hex : ∀ w ∈ ws, w.2 = Phase.exited
  · exact Or.inl hex
  · push Not at hex
    obtain ⟨⟨a, ph⟩, hmem, hne⟩ := hex
    obtain ⟨a₀, -, -, htop | hexit⟩ := exists_left h.workers hmem
    · obtain ⟨l₁, l₂, rfl⟩ := List.append_of_mem hmem
      obtain rfl : ph = .top := htop
      exact Or.inr ⟨_, .leave⟩
    · exact absurd hexit hne

/-! ## No interleaving runs on -/

/-- Leaving comes to an end. -/
theorem Leaving.acc (h : Leaving p c) (hne : p.2 ≠ []) : Acc (fun c' c => S.Step c c') c := by
  -- on the work left, which every step lowers
  induction hn : load S c using Nat.strongRecOn generalizing c with
  | _ n ih =>
    refine Acc.intro c fun c' hs => ?_
    obtain ⟨h', hlt⟩ := h.step hne hs
    exact ih _ (hn ▸ hlt) h' rfl

/-- A round comes to its completion, and the run ends if what follows does. -/
theorem InRound.acc (h : InRound S p c)
    (hnext : Acc (fun c' c => S.Step c c') (.released (S.round p) (S.stop (S.round p)))) :
    Acc (fun c' c => S.Step c c') c := by
  -- on the work left, until the completion hands over to what follows
  induction hn : load S c using Nat.strongRecOn generalizing c with
  | _ n ih =>
    refine Acc.intro c fun c' hs => ?_
    rcases h.step hs with ⟨h', hlt⟩ | rfl
    · exact ih _ (hn ▸ hlt) h' rfl
    · exact hnext

/-- If the loop ends, no interleaving of it is infinite. -/
theorem Entered.acc (hrun : S.RunsTo p p') (hne : p.2 ≠ []) (h : Entered S p c) :
    Acc (fun c' c => S.Step c c') c := by
  -- on the loop: each of its rounds is a stretch of the interleaving
  induction hrun generalizing c with
  | stop hstop =>
    rcases h with ⟨hgo, -⟩ | ⟨-, h⟩
    · exact absurd (hgo.symm.trans hstop) Bool.false_ne_true
    · exact h.acc hne
  | @next p p' hgo _ ih =>
    rcases h with ⟨-, h⟩ | ⟨hstop, -⟩
    · exact h.acc (ih (Rounds.first.ne_nil hne) entered_released)
    · exact absurd (hgo.symm.trans hstop) Bool.false_ne_true

/-! ## The two theorems -/

/-- A run is determined: where it stops is where the loop ends. -/
theorem RunsTo.of_rounds (h : Rounds S p₀ p) (hrun : S.RunsTo p p') :
    S.RunsTo (S.round p₀) p' := by
  induction h with
  | first => exact hrun
  | next _ hgo ih => exact ih (.next hgo hrun)

/-- While the test fails the loop is the loop after one round. -/
theorem RunsTo.iff_round (hgo : S.stop p = false) : S.RunsTo p p' ↔ S.RunsTo (S.round p) p' := by
  refine ⟨fun h => ?_, .next hgo⟩
  cases h with
  | stop hstop => exact absurd (hgo.symm.trans hstop) Bool.false_ne_true
  | next _ h => exact h

/-- The loop ends in one state only. -/
theorem RunsTo.unique {q : β × List α} (h : S.RunsTo p p') (h' : S.RunsTo p q) : p' = q := by
  induction h with
  | stop hstop =>
    cases h' with
    | stop _ => rfl
    | next hgo _ => exact absurd (hgo.symm.trans hstop) Bool.false_ne_true
  | next hgo _ ih =>
    cases h' with
    | stop hstop => exact absurd (hgo.symm.trans hstop) Bool.false_ne_true
    | next _ h' => exact ih h'

/-- **Every interleaving ends in the loop's result**, if the loop ends. -/
theorem endsAs_of_runsTo (hne : p.2 ≠ []) (hrun : S.RunsTo (S.round p) p') :
    S.EndsAs (.released p false) p' where
  terminates := by
    refine inRound_released.acc (Entered.acc hrun ?_ entered_released)
    exact (Rounds.first (S := S)).ne_nil hne
  progress c hr := by
    rcases Inv.reach hne hr with h | ⟨p, -, ⟨-, h⟩ | ⟨-, h⟩⟩
    · exact Or.inr h.progress
    · exact Or.inr h.progress
    · exact h.progress
  result c hr hfin := by
    -- where it ends the test holds, so the loop stops there too, and only there
    obtain ⟨hrounds, hstop⟩ := (Inv.reach hne hr).final hne hfin
    exact (RunsTo.of_rounds hrounds (.stop hstop)).unique hrun

/-- Following steps from a configuration without infinite runs leads to a final one. -/
theorem EndsAs.exists_final {p : β × List α} (h : S.EndsAs c p) :
    ∃ c', Relation.ReflTransGen S.Step c c' ∧ c'.Final := by
  obtain ⟨hacc, hprog, -⟩ := h
  -- on the accessibility, taking any step while there is one
  induction hacc with
  | intro c _ ih =>
    rcases hprog c .refl with hfin | ⟨c', hs⟩
    · exact ⟨c, .refl, hfin⟩
    · obtain ⟨c'', hr, hfin⟩ := ih c' hs fun d hr => hprog d (.head hs hr)
      exact ⟨c'', .head hs hr, hfin⟩

/-- **The loop ends where the interleavings end**, and by way of whole rounds. -/
theorem runsTo_of_endsAs (hne : p.2 ≠ []) (h : S.EndsAs (.released p false) p') :
    Rounds S p p' ∧ S.RunsTo (S.round p) p' := by
  obtain ⟨c, hr, hfin⟩ := h.exists_final
  obtain ⟨hrounds, hstop⟩ := (Inv.reach hne hr).final hne hfin
  rw [h.result c hr hfin] at hrounds hstop
  exact ⟨hrounds, .of_rounds hrounds (.stop hstop)⟩

end System

end EmulatR.Library.Barrier

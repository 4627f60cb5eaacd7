import Mathlib.Algebra.BigOperators.Group.List.Basic
import Mathlib.Algebra.Ring.Int.Defs
import Mathlib.Data.List.Forall2
import OrderDesk.Order

/-!
# Totals

A total is worked out in steps, and any step can overflow. Here the steps are
listed in their order, each with the integer that it should come to. Main
result: `total_exact`. If all steps fit the total is the integer sum, and else
it is refused for the first that does not fit.
-/

namespace OrderDesk

namespace Amount

/-- An addition or a multiplication, by the integer that it should come to. -/
structure Step where
  cause : Overflow
  result : Int
  deriving DecidableEq, Repr

/-- The first step that does not fit. -/
def misfit? (steps : List Step) : Option Step := steps.find? fun step => ¬Fits step.result

/-- The result of some steps: the integer that they lead to if all of them fit,
else the refusal of the first that does not. -/
structure Evaluates (r : Except Overflow Int64) (steps : List Step) (n : Int) : Prop where
  returned : ∀ a, r = .ok a → (∀ step ∈ steps, Fits step.result) ∧ a.toInt = n
  refused : ∀ cause, r = .error cause → ∃ step, misfit? steps = some step ∧ step.cause = cause

variable {r : Except Overflow Int64} {steps : List Step} {n : Int}

theorem misfit?_eq_none_iff : misfit? steps = none ↔ ∀ step ∈ steps, Fits step.result := by
  simp [misfit?]

namespace Evaluates

theorem exists_eq_ok_iff (h : Evaluates r steps n) : (∃ a, r = .ok a) ↔ ∀ step ∈ steps, Fits step.result := by
  constructor
  · rintro ⟨a, ha⟩
    exact (h.returned a ha).1
  · intro hfits
    cases hr : r with
    | ok a => exact ⟨a, rfl⟩
    | error cause =>
      obtain ⟨step, hstep, -⟩ := h.refused cause hr
      cases hstep.symm.trans (misfit?_eq_none_iff.2 hfits)

theorem ok (a : Int64) : Evaluates (.ok a) [] a.toInt where
  returned := by
    rintro _ ⟨⟩
    exact ⟨nofun, rfl⟩
  refused := nofun

theorem ofInt (cause : Overflow) (n : Int) : Evaluates (ofInt cause n) [⟨cause, n⟩] n := by
  by_cases hn : Fits n
  · have hr : Amount.ofInt cause n = .ok (.ofInt n) := if_pos hn
    rw [hr]
    refine ⟨?_, nofun⟩
    rintro _ ⟨⟩
    exact ⟨by simpa using hn, Int64.toInt_ofInt_of_le hn.1 hn.2⟩
  · have hr : Amount.ofInt cause n = .error cause := if_neg hn
    rw [hr]
    refine ⟨nofun, ?_⟩
    rintro _ ⟨⟩
    exact ⟨⟨cause, n⟩, List.find?_cons_of_pos (decide_eq_true hn), rfl⟩

theorem add {a b : Int64} : Evaluates (Amount.add a b) [⟨.addition, a.toInt + b.toInt⟩] (a.toInt + b.toInt) :=
  .ofInt _ _

theorem mul {a b : Int64} : Evaluates (Amount.mul a b) [⟨.multiplication, a.toInt * b.toInt⟩] (a.toInt * b.toInt) :=
  .ofInt _ _

/-- Steps that follow others are not reached once one of those does not fit. -/
theorem bind (h : Evaluates r steps n) {k : Int64 → Except Overflow Int64} {steps' : List Step} {n' : Int}
    (hk : ∀ a, a.toInt = n → Evaluates (k a) steps' n') : Evaluates (r >>= k) (steps ++ steps') n' := by
  cases hr : r with
  | error cause =>
    obtain ⟨step, hstep, rfl⟩ := h.refused cause hr
    refine ⟨nofun, ?_⟩
    rintro _ ⟨⟩
    refine ⟨step, ?_, rfl⟩
    rw [misfit?] at hstep
    rw [misfit?, List.find?_append, hstep, Option.some_or]
  | ok a =>
    obtain ⟨hfits, ha⟩ := h.returned a hr
    have hka := hk a ha
    refine ⟨fun b hb => ?_, fun cause hcause => ?_⟩
    · obtain ⟨hfits', hb⟩ := hka.returned b hb
      refine ⟨fun step hstep => ?_, hb⟩
      exact (List.mem_append.1 hstep).elim (hfits step) (hfits' step)
    · have hnone := misfit?_eq_none_iff.2 hfits
      obtain ⟨step, hstep, hcause⟩ := hka.refused cause hcause
      refine ⟨step, ?_, hcause⟩
      rw [misfit?] at hstep hnone
      rw [misfit?, List.find?_append, hnone, Option.none_or, hstep]

end Evaluates

/-! ## Sums -/

section
variable {α : Type} {f : α → Except Overflow Int64} {stepsOf : α → List Step} {value : α → Int}

/-- The steps of a sum: those of each term, and then what the sum comes to with it. -/
def sumSteps (stepsOf : α → List Step) (value : α → Int) (sum : Int) : List α → List Step
  | [] => []
  | x :: xs => stepsOf x ++ ⟨.addition, sum + value x⟩ :: sumSteps stepsOf value (sum + value x) xs

theorem Evaluates.foldlM (hf : ∀ x, Evaluates (f x) (stepsOf x) (value x)) (xs : List α) (sum : Int64) :
    Evaluates (xs.foldlM (fun sum x => do Amount.add sum (← f x)) sum) (sumSteps stepsOf value sum.toInt xs)
      (sum.toInt + (xs.map value).sum) := by
  induction xs generalizing sum with
  | nil =>
    rw [List.map_nil, List.sum_nil, Int.add_zero]
    exact .ok sum
  | cons x xs ih =>
    rw [List.foldlM_cons, sumSteps, List.append_cons, List.map_cons, List.sum_cons, ← Int.add_assoc]
    have hterm : Evaluates (do Amount.add sum (← f x)) (stepsOf x ++ [⟨.addition, sum.toInt + value x⟩])
        (sum.toInt + value x) := (hf x).bind fun a ha => ha ▸ .add
    exact hterm.bind fun a ha => ha ▸ ih a

/-- The additions of a sum come to the sums of the beginnings of the list. -/
theorem fits_sumSteps_iff {sum : Int} (h : Fits sum) (xs : List α) :
    (∀ step ∈ sumSteps stepsOf value sum xs, Fits step.result) ↔
      (∀ x ∈ xs, ∀ step ∈ stepsOf x, Fits step.result) ∧ ∀ ys, ys <+: xs → Fits (sum + (ys.map value).sum) := by
  induction xs generalizing sum with
  | nil => simpa [sumSteps] using h
  | cons x xs ih =>
    simp only [sumSteps, List.forall_mem_append, List.forall_mem_cons, List.prefix_cons_iff]
    constructor
    · rintro ⟨hx, hsum, hrest⟩
      obtain ⟨hxs, hprefix⟩ := (ih hsum).1 hrest
      refine ⟨⟨hx, hxs⟩, ?_⟩
      rintro _ (rfl | ⟨ys, rfl, hys⟩)
      · simpa using h
      · rw [List.map_cons, List.sum_cons, ← Int.add_assoc]
        exact hprefix ys hys
    · rintro ⟨⟨hx, hxs⟩, hprefix⟩
      have hsum : Fits (sum + value x) := by
        simpa using hprefix [x] (.inr ⟨[], rfl, List.nil_prefix⟩)
      refine ⟨hx, hsum, (ih hsum).2 ⟨hxs, fun ys hys => ?_⟩⟩
      have hcons := hprefix (x :: ys) (.inr ⟨ys, rfl, hys⟩)
      rwa [List.map_cons, List.sum_cons, ← Int.add_assoc] at hcons

end

end Amount

/-! ## Lines -/

namespace OrderItem

def exactExtra (picked : List SelectedOption) : Int := (picked.map (·.option.extraCost.toInt)).sum

def exactEach (item : OrderItem) : Int := item.menu.price.toInt + exactExtra item.selectedOptions

def exactTotal (item : OrderItem) : Int := item.exactEach * item.quantity.toNat

def steps (item : OrderItem) : List Amount.Step :=
  Amount.sumSteps (fun _ => []) (·.option.extraCost.toInt) 0 item.selectedOptions ++
    [⟨.addition, item.exactEach⟩, ⟨.multiplication, item.exactTotal⟩]

/-- All that is worked out for the line fits. -/
structure Fits (item : OrderItem) : Prop where
  extra : ∀ picked, picked <+: item.selectedOptions → Amount.Fits (exactExtra picked)
  each : Amount.Fits item.exactEach
  total : Amount.Fits item.exactTotal

/-- The same line with its options picked in another order. -/
structure Rearranged (item item' : OrderItem) : Prop where
  menu : item'.menu = item.menu
  quantity : item'.quantity = item.quantity
  options : item'.selectedOptions.Perm item.selectedOptions

variable {item item' : OrderItem}

theorem toInt_quantity (item : OrderItem) : (Int64.ofNat item.quantity.toNat).toInt = item.quantity.toNat :=
  Int64.toInt_ofNat_of_lt (Nat.lt_trans item.quantity.toNat_lt (by decide))

theorem evaluates_total (item : OrderItem) : Amount.Evaluates item.total item.steps item.exactTotal := by
  have hextra : Amount.Evaluates (Amount.sum (item.selectedOptions.map (·.option.extraCost)))
      (Amount.sumSteps (fun _ => []) (·.option.extraCost.toInt) 0 item.selectedOptions)
      (exactExtra item.selectedOptions) := by
    have hfold := Amount.Evaluates.foldlM (fun p : SelectedOption => .ok p.option.extraCost) item.selectedOptions 0
    rw [Int64.toInt_zero, Int.zero_add] at hfold
    rw [Amount.sum, List.foldlM_map]
    exact hfold
  refine hextra.bind fun extra hextra => ?_
  have heach : Amount.Evaluates (Amount.add item.menu.price extra) [⟨.addition, item.exactEach⟩] item.exactEach := by
    rw [exactEach, ← hextra]
    exact .add
  refine heach.bind fun each heach => ?_
  rw [exactTotal, ← heach, ← item.toInt_quantity]
  exact .mul

theorem fits_steps_iff : (∀ step ∈ item.steps, Amount.Fits step.result) ↔ item.Fits := by
  rw [steps, List.forall_mem_append, Amount.fits_sumSteps_iff (by decide)]
  simp only [List.forall_mem_cons, List.not_mem_nil, false_imp_iff, implies_true, and_true, true_and, Int.zero_add]
  exact ⟨fun ⟨hextra, heach, htotal⟩ => ⟨hextra, heach, htotal⟩, fun h => ⟨h.extra, h.each, h.total⟩⟩

theorem Rearranged.exactTotal (h : item.Rearranged item') : item'.exactTotal = item.exactTotal := by
  have hextra : exactExtra item'.selectedOptions = exactExtra item.selectedOptions := (h.options.map _).sum_eq
  rw [OrderItem.exactTotal, exactEach, h.menu, h.quantity, hextra]
  rfl

theorem map_exactTotal {items items' : List OrderItem} (h : List.Forall₂ Rearranged items items') :
    items'.map exactTotal = items.map exactTotal := by
  induction h with
  | nil => rfl
  | cons hline _ ih => rw [List.map_cons, List.map_cons, hline.exactTotal, ih]

end OrderItem

/-! ## Carts -/

namespace Cart

def exactTotal (cart : Cart) : Int := (cart.items.map OrderItem.exactTotal).sum

/-- What is worked out for the total of the cart, in order. -/
def steps (cart : Cart) : List Amount.Step := Amount.sumSteps OrderItem.steps OrderItem.exactTotal 0 cart.items

/-- All that is worked out for the cart fits. -/
structure Fits (cart : Cart) : Prop where
  lines : ∀ item ∈ cart.items, item.Fits
  sums : ∀ items, items <+: cart.items → Amount.Fits (exactTotal ⟨items⟩)

/-- The same lines in another order, each with its options in another order. -/
def Rearranged (cart cart' : Cart) : Prop :=
  ∃ items, items.Perm cart.items ∧ List.Forall₂ OrderItem.Rearranged items cart'.items

def join (cart cart' : Cart) : Cart := ⟨cart.items ++ cart'.items⟩

variable {cart cart' : Cart}

theorem evaluates_total (cart : Cart) : Amount.Evaluates cart.total cart.steps cart.exactTotal := by
  have h := Amount.Evaluates.foldlM OrderItem.evaluates_total cart.items 0
  rwa [Int64.toInt_zero, Int.zero_add] at h

theorem fits_steps_iff : (∀ step ∈ cart.steps, Amount.Fits step.result) ↔ cart.Fits := by
  rw [steps, Amount.fits_sumSteps_iff (by decide)]
  simp only [OrderItem.fits_steps_iff, Int.zero_add]
  exact ⟨fun h => ⟨h.1, h.2⟩, fun h => ⟨h.lines, h.sums⟩⟩

theorem toInt_of_total {total : Int64} (h : cart.total = .ok total) : total.toInt = cart.exactTotal :=
  (cart.evaluates_total.returned total h).2

theorem Rearranged.exactTotal (h : cart.Rearranged cart') : cart'.exactTotal = cart.exactTotal := by
  obtain ⟨items, hperm, hlines⟩ := h
  rw [Cart.exactTotal, OrderItem.map_exactTotal hlines]
  exact (hperm.map _).sum_eq

theorem exactTotal_join (cart cart' : Cart) : (cart.join cart').exactTotal = cart.exactTotal + cart'.exactTotal := by
  rw [exactTotal, join, List.map_append, List.sum_append]
  rfl

/-- **Totals.** A cart has a total exactly when all that is worked out on the
way fits: every sum of the first options of a line, the price with the options,
that times the quantity, and every sum of the first lines. Then the total is the
integer sum. Otherwise the message is that of the first step that does not fit.
So the order of lines and options has no say in a total, and carts that are
joined have the sum of their totals. -/
theorem total_exact (cart : Cart) :
    ((∃ total, cart.total = .ok total) ↔ cart.Fits) ∧
      (∀ total, cart.total = .ok total → total.toInt = cart.exactTotal) ∧
      (¬cart.Fits → ∃ step, Amount.misfit? cart.steps = some step ∧
        cart.total.mapError Overflow.message = .error step.cause.message) ∧
      (∀ cart' total total', cart.Rearranged cart' → cart.total = .ok total → cart'.total = .ok total' →
        total' = total) ∧
      ∀ cart' total total' sum, cart.total = .ok total → cart'.total = .ok total' → (cart.join cart').total = .ok sum →
        sum.toInt = total.toInt + total'.toInt := by
  have hok := cart.evaluates_total.exists_eq_ok_iff.trans fits_steps_iff
  refine ⟨hok, fun total h => toInt_of_total h, fun hfits => ?_, fun cart' total total' hr h h' => ?_,
    fun cart' total total' sum h h' hsum => ?_⟩
  · cases ht : cart.total with
    | ok total => exact absurd (hok.1 ⟨total, ht⟩) hfits
    | error cause =>
      obtain ⟨step, hstep, rfl⟩ := cart.evaluates_total.refused cause ht
      exact ⟨step, hstep, rfl⟩
  · refine Int64.toInt_inj.1 ?_
    rw [toInt_of_total h, toInt_of_total h', hr.exactTotal]
  · rw [toInt_of_total h, toInt_of_total h', toInt_of_total hsum, exactTotal_join]

/-- The options of one line take turns, and so do the lines. The last cart has no
total although it should come to nothing: with its option the price is too high
before it is multiplied by zero. -/
theorem total_exact_swapped :
    let latte : Menu := ⟨"latte", "Latte", 4500, "drinks", "", "", []⟩
    let shot : SelectedOption := ⟨"shot", ⟨"extra", "Extra shot", 500⟩⟩
    let cup : SelectedOption := ⟨"cup", ⟨"own", "Own cup", -300⟩⟩
    let cart : Cart := ⟨[⟨latte, [shot, cup], 2⟩, ⟨latte, [], 1⟩]⟩
    let swapped : Cart := ⟨[⟨latte, [], 1⟩, ⟨latte, [cup, shot], 2⟩]⟩
    let vast : Cart := ⟨[⟨{ latte with price := Int64.maxValue }, [shot], 0⟩]⟩
    cart.total = .ok 13900 ∧ cart.Rearranged swapped ∧ (∃ total, swapped.total = .ok total ∧ total = 13900) ∧
      (∃ sum, (cart.join swapped).total = .ok sum ∧ sum.toInt = 27800) ∧
      vast.exactTotal = 0 ∧ vast.total.mapError Overflow.message = .error "attempt to add with overflow" := by
  intro latte shot cup cart swapped vast
  have hcart : cart.total = .ok 13900 := by decide
  have hswapped : cart.Rearranged swapped :=
    ⟨[⟨latte, [], 1⟩, ⟨latte, [shot, cup], 2⟩], .swap _ _ _,
      .cons ⟨rfl, rfl, .refl _⟩ (.cons ⟨rfl, rfl, .swap _ _ _⟩ .nil)⟩
  have htotal : swapped.total = .ok 13900 := by decide
  have hsum : (cart.join swapped).total = .ok 27800 := by decide
  obtain ⟨-, -, -, hsame, hjoin⟩ := total_exact cart
  refine ⟨hcart, hswapped, ⟨_, htotal, hsame swapped _ _ hswapped hcart htotal⟩,
    ⟨_, hsum, hjoin swapped _ _ _ hcart htotal hsum⟩, by decide, ?_⟩
  have hvast : ¬vast.Fits := by
    intro h
    exact absurd (h.lines _ List.mem_cons_self).each (by decide)
  obtain ⟨step, hstep, htext⟩ := (total_exact vast).2.2.1 hvast
  have hfirst : Amount.misfit? vast.steps = some ⟨.addition, 0x80000000000001f3⟩ := by decide
  cases hfirst.symm.trans hstep
  exact htext

end Cart

end OrderDesk

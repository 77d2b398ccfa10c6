import StackVm.Proofs.RefusedRun
import StackVm.Proofs.StackLaws
/-!
# Counting in words

Verification and the operand stack count in words, which wrap silently, and what they count with
comes unchecked from a program. Here both are written once for every `Arithmetic`, in which a
difference or a sum may not exist: in words it does not where it would wrap, in natural numbers a
difference below zero does not. Any arithmetic that is right up to the greatest word leads to the
same answers (`check_agrees`, `get_exact`, `set_exact`, `popMany_exact`). So words never come to a
result that does not exist nor to a place outside the stack, and natural numbers show no difference
but in the report of a need past the greatest word, which words cannot state (`capped`). What this
rests on is the order of the checks: a height is compared before values are taken from it, and is
within a small bound before it is used again.
-/

namespace StackVm

/-- A number of values as a report in words states it: at most the greatest word. -/
def capped (n : Nat) : Nat := min n (UInt64.size - 1)

theorem capped_toNat (n : UInt64) : capped n.toNat = n.toNat := by
  have hword := n.toNat_lt_size
  unfold capped
  omega

theorem capped_succ (n : UInt64) : capped (n.toNat + 1) = (saturatingSucc n).toNat :=
  (toNat_saturatingSucc n).symm

/-- Numbers to count with that are right up to the greatest word. -/
structure Arithmetic (ν : Type) where
  /-- The number for a natural number. -/
  ofNat : Nat → ν
  /-- The natural number that it stands for. -/
  toNat : ν → Nat
  /-- The difference of two numbers, if there is one. -/
  sub? : ν → ν → Option ν
  /-- The sum of two numbers, if there is one. -/
  add? : ν → ν → Option ν
  /-- One more, or the greatest number. -/
  succ : ν → ν
  -- Nothing is asked of differences below zero, nor of numbers past the greatest word but that one
  -- more than the greatest word is no less.
  toNat_ofNat : ∀ n < UInt64.size, toNat (ofNat n) = n
  sub?_of_le : ∀ a b, toNat b ≤ toNat a → ∃ c, sub? a b = some c ∧ toNat c = toNat a - toNat b
  add?_of_lt : ∀ a b, toNat a + toNat b < UInt64.size →
    ∃ c, add? a b = some c ∧ toNat c = toNat a + toNat b
  capped_succ : ∀ a, capped (toNat (succ a)) = capped (toNat a + 1)

namespace Arithmetic

/-- Words. A difference or a sum that would wrap does not exist. -/
def words : Arithmetic UInt64 where
  ofNat := UInt64.ofNat
  toNat := UInt64.toNat
  sub? a b := if b ≤ a then some (a - b) else none
  add? a b := if a.toNat + b.toNat < UInt64.size then some (a + b) else none
  succ := saturatingSucc
  toNat_ofNat n hn := UInt64.toNat_ofNat_of_lt' hn
  sub?_of_le a b hle :=
    have hword : b ≤ a := UInt64.le_iff_toNat_le.2 hle
    ⟨a - b, if_pos hword, UInt64.toNat_sub_of_le a b hword⟩
  add?_of_lt a b hlt :=
    ⟨a + b, if_pos hlt, (UInt64.toNat_add a b).trans (Nat.mod_eq_of_lt hlt)⟩
  capped_succ a := by rw [capped_toNat, StackVm.capped_succ]

/-- Natural numbers, which never end. -/
def naturals : Arithmetic Nat where
  ofNat n := n
  toNat n := n
  sub? a b := if b ≤ a then some (a - b) else none
  add? a b := some (a + b)
  succ n := n + 1
  toNat_ofNat _ _ := rfl
  sub?_of_le a b hle := ⟨a - b, if_pos hle, rfl⟩
  add?_of_lt a b _ := ⟨a + b, rfl, rfl⟩
  capped_succ _ := rfl

variable {ν : Type} (A : Arithmetic ν)

/-- The number that a word is. -/
def ofWord (w : UInt64) : ν := A.ofNat w.toNat

@[simp]
theorem toNat_ofWord (w : UInt64) : A.toNat (A.ofWord w) = w.toNat :=
  A.toNat_ofNat _ w.toNat_lt_size

/-- The greater of two numbers. -/
def max (a b : ν) : ν := if A.toNat a ≤ A.toNat b then b else a

/-! ## Verification -/

/-- Why a program is refused, in numbers of some kind. -/
inductive Refusal (ν : Type) where
  /-- A hash of an odd number of values. -/
  | oddHashSize (size : ν) (position : Nat)
  /-- An instruction that needs more values than there are. -/
  | stackUnderflow (position : Nat) (needed depth : ν)
  /-- A height above the bound after an instruction. -/
  | stackOverflow (position : Nat) (depth : ν)

/-- The least depth that an instruction runs at. A copy needs one value more than its index. -/
def minDepth : Instruction → ν
  | .setN index => A.succ (A.ofWord index)
  | i => A.ofWord i.effect.minDepth

/-- Looks for a hash of odd size. -/
def checkSizes (position : Nat) : List Instruction → Except (Refusal ν) Unit
  | [] => .ok ()
  | .newHash size :: rest =>
    if A.toNat (A.ofWord size) % 2 = 0 then checkSizes (position + 1) rest
    else .error (.oddHashSize (A.ofWord size) position)
  | _ :: rest => checkSizes (position + 1) rest

/-- Follows the height of the stack. There is no answer if a number does not exist. -/
def checkDepths (position : Nat) (depth greatest : ν) :
    List Instruction → Option (Except (Refusal ν) ν)
  | [] => some (.ok greatest)
  | i :: rest =>
    if A.toNat depth < A.toNat (A.minDepth i) then
      some (.error (.stackUnderflow position (A.minDepth i) depth))
    else do
      let left ← A.sub? depth (A.ofWord i.effect.pops)
      let next ← A.add? left (A.ofWord i.effect.pushes)
      if A.toNat (A.ofWord Verification.heightBound) < A.toNat next then
        some (.error (.stackOverflow position next))
      else checkDepths (position + 1) next (A.max greatest next) rest

/-- Verification in these numbers. -/
def check (code : List Instruction) : Option (Except (Refusal ν) ν) :=
  match A.checkSizes 0 code with
  | .error e => some (.error e)
  | .ok _ => A.checkDepths 0 (A.ofNat 0) (A.ofNat 0) code

/-- The same refusal in other numbers. -/
def Refusal.map {μ : Type} (f : ν → μ) : Refusal ν → Refusal μ
  | .oddHashSize size position => .oddHashSize (f size) position
  | .stackUnderflow position needed depth => .stackUnderflow position (f needed) (f depth)
  | .stackOverflow position depth => .stackOverflow position (f depth)

/-- What verification answers, stated in natural numbers. -/
abbrev Answer := Except (Refusal Nat) Nat

/-- States an answer in natural numbers. -/
def report : Except (Refusal ν) ν → Answer
  | .ok greatest => .ok (A.toNat greatest)
  | .error e => .error (e.map A.toNat)

/-- The answer with its need as a report in words states it. -/
def Answer.capped : Answer → Answer
  | .error (.stackUnderflow position needed depth) =>
    .error (.stackUnderflow position (StackVm.capped needed) depth)
  | answer => answer

/-- An error of verification is a refusal in words. -/
def ofVerificationError : VerificationError → Refusal UInt64
  | .oddHashSize size position => .oddHashSize size position
  | .stackUnderflow position needed depth => .stackUnderflow position needed depth
  | .stackOverflow position depth => .stackOverflow position depth

/-- What verification answers. -/
def verified (answer : Except VerificationError UInt64) : Answer :=
  words.report (answer.mapError ofVerificationError)

/-- There is an answer, and it is the one that verification gives. Only a need may be past what
words can state. -/
def Agrees (result : Option (Except (Refusal ν) ν)) (answer : Except VerificationError UInt64) :
    Prop :=
  ∃ r, result = some r ∧ (A.report r).capped = verified answer

open Verification (nextDepth heightBound)

variable {A} {depth greatest : ν} {d g : UInt64} {i : Instruction} {position : Nat}
variable {code : List Instruction}

/-- Where words can state the least depth of an instruction, they state it. -/
theorem capped_minDepth (i : Instruction) :
    capped (A.toNat (A.minDepth i)) = i.effect.minDepth.toNat := by
  cases i with
  | setN index => rw [minDepth, A.capped_succ, toNat_ofWord, StackVm.capped_succ]; rfl
  | getConstant | newHash | nop | setInlineCache | putObject | putOne =>
    rw [minDepth, toNat_ofWord, capped_toNat]
    simp

/-- Below the bound, an instruction lacks values in all numbers or in none. -/
theorem lt_minDepth_iff (hdepth : A.toNat depth = d.toNat) (hbound : d ≤ heightBound) :
    A.toNat depth < A.toNat (A.minDepth i) ↔ d < i.effect.minDepth := by
  have hsmall := Verification.toNat_lt_of_le_heightBound hbound
  have hmin := @capped_minDepth ν A i
  rw [UInt64.lt_iff_toNat_lt, ← hmin, hdepth, capped]
  omega

/-- **With the values that an instruction asks for, the next depth exists**, and is the same in all
numbers. -/
theorem exists_next (hdepth : A.toNat depth = d.toNat) (hbound : d ≤ heightBound)
    (hmin : i.effect.minDepth ≤ d) :
    ∃ left next, A.sub? depth (A.ofWord i.effect.pops) = some left ∧
      A.add? left (A.ofWord i.effect.pushes) = some next ∧
      A.toNat next = (nextDepth d i).toNat := by
  have hsmall := Verification.toNat_lt_of_le_heightBound hbound
  have hpushes := Verification.pushes_le_one i
  have hpops : i.effect.pops.toNat ≤ d.toNat :=
    UInt64.le_iff_toNat_le.1 (UInt64.le_trans (Verification.pops_le_minDepth i) hmin)
  obtain ⟨left, hleft, hleft'⟩ := A.sub?_of_le depth (A.ofWord i.effect.pops)
    (by rwa [toNat_ofWord, hdepth])
  rw [toNat_ofWord, hdepth] at hleft'
  obtain ⟨next, hnext, hnext'⟩ := A.add?_of_lt left (A.ofWord i.effect.pushes)
    (by rw [toNat_ofWord, hleft']; omega)
  refine ⟨left, next, hleft, hnext, ?_⟩
  rw [hnext', hleft', toNat_ofWord, Verification.toNat_nextDepth hmin hbound]

theorem toNat_max {next : ν} {n : UInt64} (hgreatest : A.toNat greatest = g.toNat)
    (hnext : A.toNat next = n.toNat) :
    A.toNat (A.max greatest next) = (Max.max g n).toNat := by
  rw [max, UInt64.max_def, hgreatest, hnext]
  by_cases hle : g ≤ n
  · rw [if_pos hle, if_pos (UInt64.le_iff_toNat_le.1 hle), hnext]
  · rw [if_neg hle, if_neg fun h => hle (UInt64.le_iff_toNat_le.2 h), hgreatest]

/-- **The heights are the same in all numbers**, from a height within the bound. -/
theorem checkDepths_agrees (hdepth : A.toNat depth = d.toNat)
    (hgreatest : A.toNat greatest = g.toNat) (hbound : d ≤ heightBound) :
    A.Agrees (A.checkDepths position depth greatest code)
      (Verification.checkDepths position d g code) := by
  -- On the program: each instruction that is passed leaves a height within the bound.
  induction code generalizing position depth greatest d g with
  | nil => exact ⟨.ok greatest, rfl, congrArg Except.ok hgreatest⟩
  | cons i code ih =>
    rw [checkDepths, Verification.checkDepths]
    by_cases hshort : d < i.effect.minDepth
    · rw [if_pos hshort, if_pos ((lt_minDepth_iff hdepth hbound).2 hshort)]
      refine ⟨_, rfl, ?_⟩
      simp only [report, Refusal.map, Answer.capped, capped_minDepth, hdepth]
      rfl
    · obtain ⟨left, next, hleft, hnext, hsame⟩ := exists_next hdepth hbound (UInt64.not_lt.1 hshort)
      rw [if_neg hshort, if_neg fun h => hshort ((lt_minDepth_iff hdepth hbound).1 h), hleft,
        Option.bind_eq_bind, Option.bind_some, hnext, Option.bind_some, toNat_ofWord, hsame]
      by_cases hover : heightBound < nextDepth d i
      · rw [if_pos (UInt64.lt_iff_toNat_lt.1 hover)]
        simp only [hover, ↓reduceIte]
        exact ⟨_, rfl, by simp only [report, Refusal.map, Answer.capped, hsame]; rfl⟩
      · rw [if_neg fun h => hover (UInt64.lt_iff_toNat_lt.2 h)]
        simp only [hover, ↓reduceIte]
        exact ih hsame (toNat_max hgreatest hsame) (UInt64.not_lt.1 hover)

theorem even_iff (size : UInt64) : A.toNat (A.ofWord size) % 2 = 0 ↔ size % 2 = 0 := by
  rw [toNat_ofWord, ← UInt64.toNat_inj, UInt64.toNat_mod]
  rfl

/-- The same size is odd in all numbers. -/
theorem checkSizes_eq (position : Nat) (code : List Instruction) :
    A.checkSizes position code =
      (Verification.checkSizes position code).mapError
        fun e => (ofVerificationError e).map A.ofWord := by
  fun_induction Verification.checkSizes position code with
  | case1 => rfl
  | case2 position size rest heven ih => rw [checkSizes, if_pos ((even_iff size).2 heven), ih]
  | case3 position size rest hodd =>
    rw [checkSizes, if_neg fun h => hodd ((even_iff size).1 h)]
    rfl
  | case4 position first rest hother ih =>
    rw [checkSizes, ih]
    exact hother

/-- What words can state is stated the same in all numbers. -/
theorem capped_report_map (r : Refusal UInt64) :
    (A.report (.error (r.map A.ofWord))).capped = words.report (.error r) := by
  cases r with
  | oddHashSize | stackOverflow =>
    simp only [report, Refusal.map, Answer.capped, toNat_ofWord]
    rfl
  | stackUnderflow =>
    simp only [report, Refusal.map, Answer.capped, toNat_ofWord, capped_toNat]
    rfl

/-- **Verification answers the same in all numbers.** -/
theorem check_agrees (code : List Instruction) :
    A.Agrees (A.check code) (Verification.check code) := by
  rw [check, Verification.check, checkSizes_eq]
  cases Verification.checkSizes 0 code with
  | error e => exact ⟨_, rfl, capped_report_map _⟩
  | ok =>
    have hzero : A.toNat (A.ofNat 0) = (0 : UInt64).toNat := A.toNat_ofNat 0 (by decide)
    exact checkDepths_agrees hzero hzero (by decide)

/-- An answer in words states nothing that words could not. -/
theorem capped_report_words (answer : Except (Refusal UInt64) UInt64) :
    (words.report answer).capped = words.report answer := by
  rcases answer with (_ | _ | _) | _
  · rfl
  · exact congrArg (fun n => Except.error (Refusal.stackUnderflow _ n _)) (capped_toNat _)
  · rfl
  · rfl

/-! ## The operand stack -/

/-- The place, from the bottom, of the value at a depth among a number of values. -/
def place (A : Arithmetic ν) (count depth : ν) : Option (Except Fault ν) :=
  if A.toNat depth < A.toNat count then do
    let last ← A.sub? count (A.ofNat 1)
    let index ← A.sub? last depth
    return .ok index
  else some (.error (.stackUnderflow (A.toNat (A.succ depth)) (A.toNat count)))

/-- The value at a depth. There is no answer if a number does not exist, or if the place that was
computed is outside the stack. -/
def get (A : Arithmetic ν) (s : Stack) (depth : UInt64) : Option (Except Fault Value) := do
  match ← A.place (A.ofNat s.depth) (A.ofWord depth) with
  | .error fault => return .error fault
  | .ok index => return .ok (← s.toList[A.toNat index]?)

/-- Replaces the value at a depth. There is no answer in the same cases. -/
def set (A : Arithmetic ν) (s : Stack) (depth : UInt64) (v : Value) :
    Option (Except Fault Stack) := do
  match ← A.place (A.ofNat s.depth) (A.ofWord depth) with
  | .error fault => return .error fault
  | .ok index =>
    if A.toNat index < s.depth then
      return .ok { s with slots := s.slots.setIfInBounds (A.toNat index) v }
    else none

/-- Splits the values at the place below those that are taken. There is no answer in the same
cases. -/
def popMany (A : Arithmetic ν) (s : Stack) (count : UInt64) :
    Option (Except Fault (List Value × Stack)) :=
  if A.toNat (A.ofNat s.depth) < A.toNat (A.ofWord count) then
    some (.error (.stackUnderflow (A.toNat (A.ofWord count)) (A.toNat (A.ofNat s.depth))))
  else do
    let index ← A.sub? (A.ofNat s.depth) (A.ofWord count)
    if A.toNat index ≤ s.depth then
      return .ok (s.toList.drop (A.toNat index),
        { s with slots := s.slots.take (A.toNat index) })
    else none

/-- The report of a depth at which there is no value. -/
def missingAt (A : Arithmetic ν) (s : Stack) (depth : UInt64) : Fault :=
  .stackUnderflow (A.toNat (A.succ (A.ofWord depth))) s.depth

variable {s : Stack} {count : UInt64} {v : Value}

/-- **The place of a depth on the stack exists**, and is the same in all numbers. -/
theorem place_of_lt (hword : s.depth < UInt64.size) {depth : UInt64}
    (hinside : depth.toNat < s.depth) :
    ∃ index, A.place (A.ofNat s.depth) (A.ofWord depth) = some (.ok index) ∧
      A.toNat index = s.depth - 1 - depth.toNat := by
  have hcount := A.toNat_ofNat s.depth hword
  have hone : A.toNat (A.ofNat 1) = 1 := A.toNat_ofNat 1 (by decide)
  obtain ⟨last, hlast, hlast'⟩ := A.sub?_of_le (A.ofNat s.depth) (A.ofNat 1)
    (by rw [hcount, hone]; omega)
  rw [hcount, hone] at hlast'
  obtain ⟨index, hindex, hindex'⟩ := A.sub?_of_le last (A.ofWord depth)
    (by rw [hlast', toNat_ofWord]; omega)
  rw [hlast', toNat_ofWord] at hindex'
  refine ⟨index, ?_, hindex'⟩
  rw [place, if_pos (by rwa [hcount, toNat_ofWord]), hlast, Option.bind_eq_bind, Option.bind_some,
    hindex]
  rfl

/-- A depth below the stack is reported in all numbers. -/
theorem place_of_le (hword : s.depth < UInt64.size) {depth : UInt64}
    (houtside : s.depth ≤ depth.toNat) :
    A.place (A.ofNat s.depth) (A.ofWord depth) = some (.error (A.missingAt s depth)) := by
  rw [place, A.toNat_ofNat s.depth hword, toNat_ofWord, if_neg (Nat.not_lt.2 houtside), missingAt]

/-- **The value at a depth is the same in all numbers**, or missing in all of them. -/
theorem get_exact (hword : s.depth < UInt64.size) (depth : UInt64) :
    A.get s depth = some ((s.get depth).mapError fun _ => A.missingAt s depth) := by
  rw [get, s.get_eq]
  by_cases hinside : depth.toNat < s.depth
  · obtain ⟨index, hplace, hindex⟩ := @place_of_lt ν A s hword depth hinside
    have hlength : s.depth - 1 - depth.toNat < s.toList.length := by
      rw [← Stack.depth_eq_length]
      omega
    rw [hplace, Option.bind_eq_bind, Option.bind_some, Stack.getElem?_fromTop hinside]
    simp only [hindex]
    rw [List.getElem?_eq_getElem hlength]
    rfl
  · rw [place_of_le hword (Nat.not_lt.1 hinside), Option.bind_eq_bind, Option.bind_some,
      List.getElem?_eq_none (by rw [Stack.length_fromTop]; exact Nat.not_lt.1 hinside)]
    rfl

/-- **So is the stack with a value replaced.** -/
theorem set_exact (hword : s.depth < UInt64.size) (depth : UInt64) (v : Value) :
    A.set s depth v = some ((s.set depth v).mapError fun _ => A.missingAt s depth) := by
  rw [set, Stack.set]
  by_cases hinside : depth.toNat < s.depth
  · obtain ⟨index, hplace, hindex⟩ := @place_of_lt ν A s hword depth hinside
    have hlt : s.depth - 1 - depth.toNat < s.depth := by omega
    rw [hplace, Option.bind_eq_bind, Option.bind_some, if_pos hinside]
    simp only [hindex]
    rw [if_pos hlt]
    rfl
  · rw [place_of_le hword (Nat.not_lt.1 hinside), Option.bind_eq_bind, Option.bind_some,
      if_neg hinside]
    rfl

/-- **So are the values taken, and those that are left.** -/
theorem popMany_exact (hword : s.depth < UInt64.size) (count : UInt64) :
    A.popMany s count = some (s.popMany count) := by
  have hdepth := A.toNat_ofNat s.depth hword
  rw [popMany, hdepth, toNat_ofWord, Stack.popMany_eq]
  by_cases hshort : s.depth < count.toNat
  · rw [if_pos hshort, if_pos hshort]
  · obtain ⟨index, hindex, hindex'⟩ := A.sub?_of_le (A.ofNat s.depth) (A.ofWord count)
      (by rw [hdepth, toNat_ofWord]; omega)
    rw [hdepth, toNat_ofWord] at hindex'
    rw [if_neg hshort, if_neg hshort, hindex, Option.bind_eq_bind, Option.bind_some, hindex',
      if_pos (Nat.sub_le _ _), Stack.top_eq_drop, Stack.drop, Array.shrink_eq_take]
    rfl

/-- The fault with its need as a report in words states it. -/
def cappedFault : Fault → Fault
  | .stackUnderflow needed depth => .stackUnderflow (capped needed) depth
  | fault => fault

theorem missingAt_words (s : Stack) (depth : UInt64) :
    words.missingAt s depth = s.missingAt depth := by
  have hsame : words.ofWord depth = depth := UInt64.ofNat_toNat
  rw [missingAt, hsame]
  rfl

theorem cappedFault_missingAt (s : Stack) (depth : UInt64) :
    cappedFault (A.missingAt s depth) = s.missingAt depth := by
  rw [missingAt, cappedFault, A.capped_succ, toNat_ofWord, StackVm.capped_succ]
  rfl

/-- Nothing else is reported of a depth than that there is no value. -/
theorem mapError_get (s : Stack) (depth : UInt64) :
    ((s.get depth).mapError fun _ => s.missingAt depth) = s.get depth := by
  rw [s.get_eq]
  cases s.fromTop[depth.toNat]? <;> rfl

theorem mapError_set (s : Stack) (depth : UInt64) (v : Value) :
    ((s.set depth v).mapError fun _ => s.missingAt depth) = s.set depth v := by
  rw [Stack.set]
  split <;> rfl

theorem mapError_mapError {α : Type} (x : Except Fault α) (fault : Fault) :
    (x.mapError fun _ => fault).mapError cappedFault = x.mapError fun _ => cappedFault fault := by
  cases x <;> rfl

/-- The verification of a program is exact. -/
structure ExactFor (code : List Instruction) : Prop where
  /-- On the way to the answer no word wraps: words that fail instead of wrapping lead to it too. -/
  unwrapped : ∃ r, words.check code = some r ∧ words.report r = verified (Verification.check code)
  /-- Natural numbers lead to the same answer, but for a need that words cannot state. -/
  unbounded : ∃ r, naturals.check code = some r ∧
    (naturals.report r).capped = verified (Verification.check code)

/-- The places on a stack are exact. -/
structure ExactOn (s : Stack) : Prop where
  /-- On the way to a value no word wraps, and the place is on the stack. -/
  get_words : ∀ depth, words.get s depth = some (s.get depth)
  /-- Natural numbers lead to the same value, or to the same report but for a need that words cannot
  state. -/
  get_naturals : ∀ depth,
    (naturals.get s depth).map (Except.mapError cappedFault) = some (s.get depth)
  /-- The same for the value that is replaced, -/
  set_words : ∀ depth v, words.set s depth v = some (s.set depth v)
  /-- in both kinds of numbers. -/
  set_naturals : ∀ depth v,
    (naturals.set s depth v).map (Except.mapError cappedFault) = some (s.set depth v)
  /-- The same for the values that are taken, -/
  popMany_words : ∀ count, words.popMany s count = some (s.popMany count)
  /-- whose number words can always state. -/
  popMany_naturals : ∀ count, naturals.popMany s count = some (s.popMany count)

/-- A stack whose depth is a word has exact places. -/
theorem exactOn_of_lt (hword : s.depth < UInt64.size) : ExactOn s := by
  refine ⟨?_, ?_, ?_, ?_, popMany_exact hword, popMany_exact hword⟩
  · intro depth
    rw [get_exact hword, missingAt_words, mapError_get]
  · intro depth
    rw [get_exact hword, Option.map_some, mapError_mapError, cappedFault_missingAt, mapError_get]
  · intro depth v
    rw [set_exact hword, missingAt_words, mapError_set]
  · intro depth v
    rw [set_exact hword, Option.map_some, mapError_mapError, cappedFault_missingAt, mapError_set]

/-- **The arithmetic of words is exact**, in the verification of every program, whatever its
operands, and on every stack that operations lead to. -/
theorem words_exact (code : List Instruction) (limit : UInt64) (ops : List Stack.Operation) :
    ExactFor code ∧ ExactOn ((Stack.empty limit).after ops) := by
  obtain ⟨inWords, hwords, hsame⟩ := @check_agrees UInt64 words code
  rw [capped_report_words] at hsame
  obtain ⟨-, hdepth⟩ := @Stack.after_bounds (Stack.empty limit) (Nat.zero_le _) ops
  exact ⟨⟨⟨inWords, hwords, hsame⟩, check_agrees code⟩,
    exactOn_of_lt (Nat.lt_of_le_of_lt hdepth limit.toNat_lt_size)⟩

-- A copy to the greatest depth needs more values than words can count.
example :
    naturals.check [.putOne, .setN 18446744073709551615] =
        some (.error (.stackUnderflow 1 18446744073709551616 1)) ∧
      words.check [.putOne, .setN 18446744073709551615] =
        some (.error (.stackUnderflow 1 18446744073709551615 1)) :=
  ⟨rfl, rfl⟩

end Arithmetic

end StackVm

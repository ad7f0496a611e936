import Mathlib.Algebra.Ring.Nat
import Mathlib.Data.List.Perm.Subperm
import Mathlib.Data.List.TakeWhile
import Mathlib.Logic.Function.Iterate
import PracticeSwift.Library.LinkedList

/-!
# The skip list

The nodes are linked on every level below their height, and a search goes along a level until the
next node is not before what it looks for, and then one level down.  `Represents` says that the
levels link the nodes that are high enough, in the order of their keys; an insertion keeps it after
each level it has linked, and under it the searches find what they would find in a sorted list.
-/

namespace PracticeSwift.LevelDb

/-! ## Random numbers -/

/-- `Random`, of `util/random.h`. -/
structure Random where
  seed : BitVec 32

namespace Random

/-- `2^31 - 1` -/
def M : BitVec 32 := 2147483647

def A : BitVec 64 := 16807

/-- The constructor, which avoids bad seeds. -/
def new (s : BitVec 32) : Random :=
  let seed := s &&& 0x7fffffff
  ⟨if seed = 0 ∨ seed = 2147483647 then 1 else seed⟩

/-- `Next` -/
def next (r : Random) : BitVec 32 × Random :=
  let product := r.seed.setWidth 64 * A
  let seed := ((product >>> 31) + (product &&& M.setWidth 64)).setWidth 32
  let seed := if M < seed then seed - M else seed
  (seed, ⟨seed⟩)

/-- The seed is none of the bad ones. -/
structure Good (r : Random) : Prop where
  pos : 0 < r.seed.toNat
  lt : r.seed.toNat < 2147483647

theorem good_new (s : BitVec 32) : (new s).Good := by
  have hle : (s &&& 0x7fffffff).toNat ≤ 2147483647 := by
    rw [BitVec.toNat_and]
    exact Nat.and_le_right
  unfold new
  by_cases hbad : s &&& 0x7fffffff = 0 ∨ s &&& 0x7fffffff = 2147483647
  · refine ⟨?_, ?_⟩ <;> dsimp only <;> rw [if_pos hbad] <;> decide
  · rw [not_or] at hbad
    have hzero : (s &&& 0x7fffffff).toNat ≠ 0 := fun h => hbad.1 (BitVec.eq_of_toNat_eq h)
    have hmax : (s &&& 0x7fffffff).toNat ≠ 2147483647 := fun h => hbad.2 (BitVec.eq_of_toNat_eq h)
    refine ⟨?_, ?_⟩ <;> dsimp only <;> rw [if_neg (not_or.2 hbad)] <;> omega

/-- `2^31` leaves the remainder one, so what is above it can be added to what is below. -/
theorem mod_eq_add (n : ℕ) :
    n % 2147483647 = (n / 2147483648 + n % 2147483648) % 2147483647 := by
  have hsplit : n = n / 2147483648 + n % 2147483648 + 2147483647 * (n / 2147483648) := by omega
  conv_lhs => rw [hsplit]
  exact Nat.add_mul_mod_self_left _ _ _

/-- A sum that is below twice `M`, and is not `M` itself, is reduced by one subtraction. -/
theorem toNat_reduce {n : ℕ} (hn : n < 2 * 2147483647) (hM : n ≠ 2147483647) :
    (if M < BitVec.ofNat 32 n then BitVec.ofNat 32 n - M else BitVec.ofNat 32 n).toNat =
      n % 2147483647 := by
  have hofNat : (BitVec.ofNat 32 n).toNat = n := by
    rw [BitVec.toNat_ofNat]
    omega
  have hvalue : M.toNat = 2147483647 := rfl
  by_cases hover : M < BitVec.ofNat 32 n
  · rw [if_pos hover, BitVec.toNat_sub, hofNat, hvalue]
    rw [BitVec.lt_def, hofNat, hvalue] at hover
    omega
  · rw [if_neg hover, hofNat]
    rw [BitVec.lt_def, hofNat, hvalue] at hover
    omega

/-- What is drawn next is the remainder of the product, which is not zero. -/
theorem next_eq {r : Random} (h : r.Good) :
    r.next.2.seed.toNat = r.seed.toNat * 16807 % 2147483647 ∧ r.next.2.Good := by
  have hpos := h.pos
  have hlt := h.lt
  have hne : r.seed.toNat * 16807 % 2147483647 ≠ 0 := by
    intro hzero
    have hdvd := Nat.Coprime.dvd_of_dvd_mul_right (by decide : Nat.Coprime 2147483647 16807)
      (Nat.dvd_of_mod_eq_zero hzero)
    exact absurd (Nat.le_of_dvd hpos hdvd) (Nat.not_le_of_lt hlt)
  have hproduct : (r.seed.setWidth 64 * A).toNat = r.seed.toNat * 16807 := by
    rw [BitVec.toNat_mul, BitVec.toNat_setWidth, show A.toNat = 16807 from rfl,
      Nat.mod_eq_of_lt (by omega : r.seed.toNat < 2 ^ 64), Nat.mod_eq_of_lt (by omega)]
  have hhigh : ((r.seed.setWidth 64 * A) >>> 31).toNat = r.seed.toNat * 16807 / 2147483648 := by
    rw [BitVec.toNat_ushiftRight, hproduct, Nat.shiftRight_eq_div_pow]
  have hlow : ((r.seed.setWidth 64 * A) &&& M.setWidth 64).toNat =
      r.seed.toNat * 16807 % 2147483648 := by
    rw [BitVec.toNat_and, hproduct]
    exact Nat.and_two_pow_sub_one_eq_mod _ 31
  have hsum : (((r.seed.setWidth 64 * A) >>> 31) +
      ((r.seed.setWidth 64 * A) &&& M.setWidth 64)).setWidth 32 =
        BitVec.ofNat 32 (r.seed.toNat * 16807 / 2147483648 + r.seed.toNat * 16807 % 2147483648) := by
    apply BitVec.eq_of_toNat_eq
    rw [BitVec.toNat_setWidth, BitVec.toNat_add, hhigh, hlow, BitVec.toNat_ofNat]
    omega
  have hmod := mod_eq_add (r.seed.toNat * 16807)
  have hseed : r.next.2.seed.toNat = r.seed.toNat * 16807 % 2147483647 := by
    unfold next
    dsimp only
    rw [hsum, hmod]
    refine toNat_reduce (by omega) fun hM => hne ?_
    rw [hmod, hM]
  refine ⟨hseed, ?_, ?_⟩ <;> rw [hseed]
  · exact Nat.pos_of_ne_zero hne
  · exact Nat.mod_lt _ (by decide)

/-- The generator after some numbers were drawn. -/
def drawn (r : Random) (n : ℕ) : Random := (fun r : Random => r.next.2)^[n] r

/-- After any number of draws the seed is the first one times as many powers of `A`, modulo `M`, and
it has not become a bad one. -/
theorem draws_eq (s : BitVec 32) (n : ℕ) :
    ((new s).drawn n).Good ∧
      ((new s).drawn n).seed.toNat = (new s).seed.toNat * 16807 ^ n % 2147483647 := by
  induction n with
  | zero =>
    have hgood := good_new s
    exact ⟨hgood, by rw [Nat.pow_zero, Nat.mul_one, Nat.mod_eq_of_lt hgood.lt]; rfl⟩
  | succ n ih =>
    obtain ⟨hgood, hseed⟩ := ih
    obtain ⟨hnext, hgood'⟩ := next_eq hgood
    rw [drawn, Function.iterate_succ_apply']
    refine ⟨hgood', ?_⟩
    rw [drawn] at hnext hseed
    rw [hnext, hseed, Nat.pow_succ, ← Nat.mul_assoc, Nat.mod_mul_mod]

end Random

/-! ## The list -/

/-- A pointer to a node; the head is the first node that was allocated. -/
abbrev Node := ℕ

structure SkipList (α : Type) where
  key : Node → α
  next : Node → ℕ → Option Node
  /-- How many nodes have been allocated. -/
  size : ℕ
  maxHeight : ℕ
  rnd : Random

namespace SkipList

open Function (update)

variable {α : Type}

def kMaxHeight : ℕ := 12

def head : Node := 0

/-- The constructor; any key will do for the head. -/
def new (anyKey : α) : SkipList α where
  key _ := anyKey
  next _ _ := none
  size := 1
  maxHeight := 1
  rnd := Random.new 0xdeadbeef

/-- `NewNode`, without links. -/
def newNode (l : SkipList α) (key : α) : Node × SkipList α :=
  (l.size, { l with key := update l.key l.size key, size := l.size + 1 })

def setNext (l : SkipList α) (n : Node) (level : ℕ) (x : Option Node) : SkipList α :=
  { l with next := update l.next n (update (l.next n) level x) }

/-- The loop of `RandomHeight`. -/
def increaseHeight (height : ℕ) (rnd : Random) : ℕ × Random :=
  if height < kMaxHeight then
    let drawn := rnd.next
    if drawn.1.toNat % 4 = 0 then increaseHeight (height + 1) drawn.2 else (height, drawn.2)
  else (height, rnd)
termination_by kMaxHeight - height

def randomHeight (rnd : Random) : ℕ × Random := increaseHeight 1 rnd

/-- The loop of the searches, which keeps the node it leaves each level at. -/
def search (l : SkipList α) (before : Node → Bool) :
    ℕ → Node → ℕ → (ℕ → Node) → Option (Node × (ℕ → Node))
  | 0, _, _, _ => none
  | fuel + 1, x, level, prev =>
    let next := l.next x level
    if next.any before then search l before fuel (next.getD x) level prev
    else
      let prev := update prev level x
      if level = 0 then some (x, prev) else search l before fuel x (level - 1) prev

/-- Each round goes to a later node or to a lower level. -/
def fuel (l : SkipList α) : ℕ := l.size + l.maxHeight

variable (compare : α → α → Ordering)

def equal (a b : α) : Bool := compare a b = .eq

def keyIsAfterNode (l : SkipList α) (key : α) (n : Option Node) : Bool :=
  match n with
  | none => false
  | some n => compare (l.key n) key = .lt

def findGreaterOrEqual (l : SkipList α) (key : α) (prev : ℕ → Node) :
    Option (Option Node × (ℕ → Node)) :=
  (l.search (fun n => l.keyIsAfterNode compare key (some n)) l.fuel head (l.maxHeight - 1)
    prev).map fun (x, prev) => (l.next x 0, prev)

def findLessThan (l : SkipList α) (key : α) : Option Node :=
  (l.search (fun n => !(compare (l.key n) key).isGE) l.fuel head (l.maxHeight - 1)
    fun _ => head).map Prod.fst

def findLast (l : SkipList α) : Option Node :=
  (l.search (fun _ => true) l.fuel head (l.maxHeight - 1) fun _ => head).map Prod.fst

/-- A round of the loop of `Insert`, which links a node on a level. -/
def link (x : Node) (prev : ℕ → Node) (l : SkipList α) (level : ℕ) : SkipList α :=
  (l.setNext x level (l.next (prev level) level)).setNext (prev level) level (some x)

/-- `Insert`; what `prev` holds before the search does not matter. -/
def insert (l : SkipList α) (key : α) : Option (SkipList α) := do
  let (_, prev) ← l.findGreaterOrEqual compare key fun _ => head
  let (height, rnd) := randomHeight l.rnd
  let prev i := if l.maxHeight ≤ i ∧ i < height then head else prev i
  let l := { l with rnd, maxHeight := if l.maxHeight < height then height else l.maxHeight }
  let (x, l) := l.newNode key
  return (List.range height).foldl (link x prev) l

def contains (l : SkipList α) (key : α) : Option Bool := do
  let (x, _) ← l.findGreaterOrEqual compare key fun _ => head
  return x.any fun x => equal compare key (l.key x)

/-! ## Iterators -/

/-- `Iterator::Seek` -/
def seek (l : SkipList α) (target : α) : Option (Option Node) :=
  (l.findGreaterOrEqual compare target fun _ => head).map Prod.fst

/-- `Iterator::Prev` -/
def prev (l : SkipList α) (n : Node) : Option (Option Node) :=
  (l.findLessThan compare (l.key n)).map fun x => if x = head then none else some x

/-- `Iterator::Next` -/
def nextNode (l : SkipList α) (n : Node) : Option Node := l.next n 0

/-- `Iterator::SeekToFirst` -/
def seekToFirst (l : SkipList α) : Option Node := l.next head 0

/-- `Iterator::SeekToLast` -/
def seekToLast (l : SkipList α) : Option (Option Node) :=
  l.findLast.map fun x => if x = head then none else some x

/-! ## What a skip list represents -/

open LinkedList

/-- The nodes that are linked on a level. -/
def onLevel (height : Node → ℕ) (level : ℕ) (nodes : List Node) : List Node :=
  nodes.filter fun n => level < height n

/-- These nodes are in the list, in this order and up to these heights. -/
structure Represents (l : SkipList α) (nodes : List Node) (height : Node → ℕ) : Prop where
  linked : ∀ level < kMaxHeight, Linked (l.next · level) head (onLevel height level nodes)
  sorted : nodes.Pairwise fun a b => compare (l.key a) (l.key b) = .lt
  allocated : ∀ n ∈ nodes, head < n ∧ n < l.size
  high : ∀ n ∈ nodes, 0 < height n ∧ height n ≤ l.maxHeight
  size_pos : 0 < l.size
  maxHeight_pos : 0 < l.maxHeight
  maxHeight_le : l.maxHeight ≤ kMaxHeight

variable {compare} {l : SkipList α} {nodes : List Node} {height : Node → ℕ}

theorem onLevel_zero (h : ∀ n ∈ nodes, 0 < height n) : onLevel height 0 nodes = nodes :=
  List.filter_eq_self.2 fun n hn => decide_eq_true (h n hn)

theorem onLevel_append (height : Node → ℕ) (level : ℕ) (as bs : List Node) :
    onLevel height level (as ++ bs) = onLevel height level as ++ onLevel height level bs :=
  List.filter_append ..

/-- A level that reaches the last of some nodes ends with it. -/
theorem last_onLevel {x : Node} {as : List Node} {level : ℕ}
    (h : as = [] ∨ level < height (last x as)) : last x (onLevel height level as) = last x as := by
  rcases List.eq_nil_or_concat as with rfl | ⟨as, n, rfl⟩
  · rfl
  · have hn : level < height n := by
      rcases h with h | h
      · simp at h
      · rwa [List.concat_eq_append, last_append, last_cons, last_nil] at h
    have hlast : onLevel height level [n] = [n] := List.filter_cons_of_pos (decide_eq_true hn)
    rw [List.concat_eq_append, onLevel_append, last_append, last_append, hlast]
    rfl

/-! ## Searches -/

/-- What follows the nodes passed on a level, of which the last one is on this level. -/
theorem Represents.next_search (h : Represents compare l nodes height)
    {passed ahead behind : List Node} (hnodes : nodes = passed ++ (ahead ++ behind)) {level : ℕ}
    (hlevel : level < kMaxHeight) (hpassed : passed = [] ∨ level < height (last head passed)) :
    l.next (last head passed) level =
      (onLevel height level ahead ++ onLevel height level behind).head? := by
  have hlinked := h.linked level hlevel
  rw [hnodes, onLevel_append, onLevel_append] at hlinked
  rw [← last_onLevel hpassed]
  exact hlinked.drop.next_eq

theorem not_any_head? {before : Node → Bool} {ns : List Node} (h : ∀ n ∈ ns, before n = false) :
    ¬ ns.head?.any before = true := by
  cases ns with
  | nil => exact Bool.false_ne_true
  | cons n ns =>
    rw [List.head?_cons, Option.any_some, h n List.mem_cons_self]
    exact Bool.false_ne_true

/-- A search goes to the last of the nodes that are before what it looks for, and leaves each level
at the last of those that are on it. -/
theorem Represents.search_from (h : Represents compare l nodes height) {before : Node → Bool}
    (passed ahead behind : List Node) (hnodes : nodes = passed ++ (ahead ++ behind))
    (hahead : ∀ n ∈ ahead, before n = true) (hbehind : ∀ n ∈ behind, before n = false)
    (fuel level : ℕ) (hfuel : ahead.length + level < fuel) (hlevel : level < kMaxHeight)
    (hpassed : passed = [] ∨ level < height (last head passed)) (prev : ℕ → Node) :
    ∃ prev', l.search before fuel (last head passed) level prev =
        some (last head (passed ++ ahead), prev') ∧
      (∀ i ≤ level, prev' i = last head (onLevel height i (passed ++ ahead))) ∧
      ∀ i, level < i → prev' i = prev i := by
  induction fuel generalizing passed ahead level prev with
  | zero => exact absurd hfuel (Nat.not_lt_zero _)
  | succ fuel ih =>
    have hnext := h.next_search hnodes hlevel hpassed
    rw [search]
    cases hlevelAhead : onLevel height level ahead with
    | nil =>
      -- What is next on this level is not before what is looked for.
      rw [hlevelAhead, List.nil_append] at hnext
      have hstop : ¬ (l.next (last head passed) level).any before = true := by
        rw [hnext]
        exact not_any_head? fun n hn => hbehind n (List.mem_of_mem_filter hn)
      rw [if_neg hstop]
      have hleft : last head passed = last head (onLevel height level (passed ++ ahead)) := by
        rw [onLevel_append, hlevelAhead, List.append_nil, last_onLevel hpassed]
      by_cases hzero : level = 0
      · subst hzero
        have hnone : ahead = [] := by
          rw [← hlevelAhead]
          exact (onLevel_zero fun n hn => (h.high n (by simp [hnodes, hn])).1).symm
        rw [if_pos rfl]
        refine ⟨_, by rw [hnone, List.append_nil], fun i hi => ?_, fun i hi => ?_⟩
        · rw [Nat.le_zero.1 hi, Function.update_self]
          exact hleft
        · exact Function.update_of_ne (Nat.ne_of_gt hi) _ _
      · rw [if_neg hzero]
        obtain ⟨prev', hsearch, hprev, hsame⟩ := ih _ _ hnodes hahead (level - 1) (by omega)
          (by omega) (hpassed.imp id fun hlt => by omega) (update prev level (last head passed))
        refine ⟨prev', hsearch, fun i hi => ?_, fun i hi => ?_⟩
        · rcases Nat.lt_or_eq_of_le hi with hlt | rfl
          · exact hprev i (by omega)
          · rw [hsame i (by omega), Function.update_self, hleft]
        · rw [hsame i (by omega), Function.update_of_ne (Nat.ne_of_gt hi)]
    | cons n rest =>
      -- The next node is on this level and before what is looked for.
      obtain ⟨u, v, rfl, hu, hn, -⟩ := List.filter_eq_cons_iff.1 hlevelAhead
      rw [hlevelAhead, List.cons_append, List.head?_cons] at hnext
      have hgo : (l.next (last head passed) level).any before = true := by
        rw [hnext, Option.any_some]
        exact hahead n (by simp)
      have hlast : last head (passed ++ (u ++ [n])) = n := by
        rw [last_append, last_append]
        rfl
      have hsplit : passed ++ (u ++ n :: v) = passed ++ (u ++ [n]) ++ v := by simp
      rw [if_pos hgo, hnext, Option.getD_some, hsplit]
      rw [List.length_append, List.length_cons] at hfuel
      have hnodes' : nodes = passed ++ (u ++ [n]) ++ (v ++ behind) := by
        rw [hnodes, ← List.append_assoc, hsplit, List.append_assoc]
      have hahead' : ∀ m ∈ v, before m = true := fun m hm => hahead m (by simp [hm])
      have hlevel' : level < height (last head (passed ++ (u ++ [n]))) := by
        rw [hlast]
        exact of_decide_eq_true hn
      have hgoOn := ih _ _ hnodes' hahead' level (by omega) hlevel (.inr hlevel') prev
      rwa [hlast] at hgoOn

theorem Represents.head_notMem (h : Represents compare l nodes height) : head ∉ nodes :=
  fun hmem => Nat.lt_irrefl _ (h.allocated head hmem).1

/-- If what comes before a node is before what is looked for when the node is, then only the first
nodes are. -/
theorem Represents.forall_dropWhile {before : Node → Bool} (h : Represents compare l nodes height)
    (hbefore : ∀ a b, compare (l.key a) (l.key b) = .lt → before b = true → before a = true) :
    ∀ n ∈ nodes.dropWhile before, before n = false := by
  have hsorted := h.sorted
  clear h
  induction nodes with
  | nil => exact fun n hn => absurd hn List.not_mem_nil
  | cons a nodes ih =>
    obtain ⟨hfirst, hrest⟩ := List.pairwise_cons.1 hsorted
    intro n hn
    by_cases ha : before a = true
    · rw [List.dropWhile_cons_of_pos ha] at hn
      exact ih hrest n hn
    · rw [List.dropWhile_cons_of_neg ha] at hn
      rcases List.mem_cons.1 hn with rfl | hn
      · exact Bool.eq_false_iff.2 ha
      · exact Bool.eq_false_iff.2 fun hbefore' => ha (hbefore a n (hfirst n hn) hbefore')

/-- What follows the nodes before a key on the lowest level. -/
theorem Represents.next_last (h : Represents compare l nodes height) (as bs : List Node)
    (hnodes : nodes = as ++ bs) : l.next (last head as) 0 = bs.head? := by
  have hlinked := h.linked 0 (by decide)
  rw [onLevel_zero fun n hn => (h.high n hn).1, hnodes] at hlinked
  exact hlinked.drop.next_eq

variable (compare) in
/-- The key of a node comes before this one. -/
def isBefore (l : SkipList α) (key : α) (n : Node) : Bool := compare (l.key n) key = .lt

theorem keyIsAfterNode_some (l : SkipList α) (key : α) :
    (fun n => l.keyIsAfterNode compare key (some n)) = l.isBefore compare key := rfl

theorem not_isGE (l : SkipList α) (key : α) :
    (fun n => !(compare (l.key n) key).isGE) = l.isBefore compare key := by
  funext n
  unfold isBefore
  cases compare (l.key n) key <;> decide

section Searches

variable [Std.TransCmp compare]

theorem Represents.nodup (h : Represents compare l nodes height) : nodes.Nodup := by
  refine h.sorted.imp fun {a b} hlt heq => ?_
  have hself : compare (l.key b) (l.key b) = .eq := Std.ReflCmp.compare_self
  rw [heq, hself] at hlt
  cases hlt

theorem Represents.length_lt (h : Represents compare l nodes height) :
    nodes.length < l.size := by
  have hsubset : head :: nodes ⊆ List.range l.size := by
    intro n hn
    rcases List.mem_cons.1 hn with rfl | hn
    · exact List.mem_range.2 h.size_pos
    · exact List.mem_range.2 (h.allocated n hn).2
  have hnodup : (head :: nodes).Nodup := List.nodup_cons.2 ⟨h.head_notMem, h.nodup⟩
  have hlength := (List.subperm_of_subset hnodup hsubset).length_le
  rw [List.length_range, List.length_cons] at hlength
  exact hlength

/-- A search from the head. -/
theorem Represents.search (h : Represents compare l nodes height) (before : Node → Bool)
    (hbefore : ∀ a b, compare (l.key a) (l.key b) = .lt → before b = true → before a = true)
    (prev : ℕ → Node) :
    ∃ prev', l.search before l.fuel head (l.maxHeight - 1) prev =
        some (last head (nodes.takeWhile before), prev') ∧
      ∀ i < l.maxHeight, prev' i = last head (onLevel height i (nodes.takeWhile before)) := by
  have hlength := h.length_lt
  have htake := (List.takeWhile_prefix before (l := nodes)).length_le
  have hpos := h.maxHeight_pos
  have hle := h.maxHeight_le
  obtain ⟨prev', hsearch, hprev, -⟩ := h.search_from [] _ _ List.takeWhile_append_dropWhile.symm
    (fun n hn => List.mem_takeWhile_imp hn) (h.forall_dropWhile hbefore) l.fuel (l.maxHeight - 1)
    (by unfold fuel; omega) (by omega) (.inl rfl) prev
  exact ⟨prev', hsearch, fun i hi => hprev i (by omega)⟩

theorem isBefore_of_lt (key : α) {a b : Node} (hab : compare (l.key a) (l.key b) = .lt)
    (hb : l.isBefore compare key b = true) : l.isBefore compare key a = true :=
  decide_eq_true (Std.TransCmp.lt_trans hab (of_decide_eq_true hb))

/-- The node that is found is the first that is not before the key. -/
theorem Represents.findGreaterOrEqual (h : Represents compare l nodes height) (key : α)
    (prev : ℕ → Node) :
    ∃ prev', l.findGreaterOrEqual compare key prev =
        some ((nodes.dropWhile (l.isBefore compare key)).head?, prev') ∧
      ∀ i < l.maxHeight,
        prev' i = last head (onLevel height i (nodes.takeWhile (l.isBefore compare key))) := by
  obtain ⟨prev', hsearch, hprev⟩ := h.search _ (fun a b => isBefore_of_lt key) prev
  refine ⟨prev', ?_, hprev⟩
  rw [SkipList.findGreaterOrEqual, keyIsAfterNode_some, hsearch]
  exact congrArg (fun x => some (x, prev')) (h.next_last _ _ List.takeWhile_append_dropWhile.symm)

theorem Represents.findLessThan (h : Represents compare l nodes height) (key : α) :
    l.findLessThan compare key = some (last head (nodes.takeWhile (l.isBefore compare key))) := by
  obtain ⟨prev', hsearch, -⟩ := h.search _ (fun a b => isBefore_of_lt key) fun _ => head
  rw [SkipList.findLessThan, not_isGE, hsearch, Option.map_some]

theorem Represents.findLast (h : Represents compare l nodes height) :
    l.findLast = some (last head nodes) := by
  obtain ⟨prev', hsearch, -⟩ := h.search (fun _ => true) (fun _ _ _ _ => rfl)
    fun _ => head
  rw [SkipList.findLast, hsearch, List.takeWhile_eq_self_iff.2 fun _ _ => rfl]
  rfl

end Searches

/-! ## Insertion -/

theorem next_setNext (l : SkipList α) (n : Node) (level : ℕ) (x : Option Node) (m : Node) (k : ℕ) :
    (l.setNext n level x).next m k = if m = n ∧ k = level then x else l.next m k := by
  unfold setNext
  by_cases hm : m = n
  · subst hm
    by_cases hk : k = level
    · subst hk
      simp
    · simp [hk]
  · simp [hm]

/-- The nodes on a level when a new node has been linked on the first levels. -/
def linkedTo (height : Node → ℕ) (as bs : List Node) (x : Node) (n level : ℕ) : List Node :=
  onLevel height level as ++
    if level < n then x :: onLevel height level bs else onLevel height level bs

/-- A round of the loop links the new node on one more level. -/
theorem linked_link {as bs : List Node} {x : Node} {prev : ℕ → Node} {n : ℕ}
    (hlinked : ∀ level < kMaxHeight,
      Linked (l.next · level) head (linkedTo height as bs x n level))
    (hprev : prev n = last head (onLevel height n as)) (hnodup : (head :: (as ++ bs)).Nodup)
    (hx : x ∉ head :: (as ++ bs)) :
    ∀ level < kMaxHeight,
      Linked ((link x prev l n).next · level) head (linkedTo height as bs x (n + 1) level) := by
  intro level hlevel
  have hold := hlinked level hlevel
  by_cases hn : level = n
  · subst hn
    have hsublist : (head :: (onLevel height level as ++ onLevel height level bs)).Sublist
        (head :: (as ++ bs)) := (List.filter_sublist.append List.filter_sublist).cons_cons head
    have hlast : last head (onLevel height level as) ∈ head :: (as ++ bs) :=
      hsublist.subset (List.mem_cons.2 ((List.mem_cons.1 (last_mem _ _)).imp id
        (List.mem_append_left _)))
    have hne : x ≠ prev level := fun heq => hx (heq ▸ hprev ▸ hlast)
    rw [linkedTo, if_neg (Nat.lt_irrefl _)] at hold
    rw [linkedTo, if_pos (Nat.lt_succ_self _)]
    refine hold.insert (hnodup.sublist hsublist) ?_ ?_ fun y hy hylast => ?_
    · simp [link, next_setNext, hne, ← hprev]
    · simp [link, next_setNext, hprev]
    · have hyx : y ≠ x := fun heq => hx (heq ▸ hsublist.subset hy)
      rw [← hprev] at hylast
      simp [link, next_setNext, hyx, hylast]
  · have hsame : linkedTo height as bs x (n + 1) level = linkedTo height as bs x n level := by
      unfold linkedTo
      congr 1
      by_cases hlt : level < n
      · rw [if_pos hlt, if_pos (by omega)]
      · rw [if_neg hlt, if_neg (by omega)]
    rw [hsame]
    refine hold.congr fun y _ => ?_
    simp [link, next_setNext, hn]

/-- The loop links the new node on all levels below its height, and changes nothing else. -/
theorem linked_links (l : SkipList α) {as bs : List Node} {x : Node} (prev : ℕ → Node) (count : ℕ)
    (hlinked : ∀ level < kMaxHeight,
      Linked (l.next · level) head (onLevel height level (as ++ bs)))
    (hprev : ∀ n < count, prev n = last head (onLevel height n as))
    (hnodup : (head :: (as ++ bs)).Nodup) (hx : x ∉ head :: (as ++ bs)) :
    ∃ next, (List.range count).foldl (link x prev) l = { l with next } ∧
      ∀ level < kMaxHeight, Linked (next · level) head (linkedTo height as bs x count level) := by
  induction count with
  | zero =>
    refine ⟨l.next, rfl, fun level hlevel => ?_⟩
    rw [linkedTo, if_neg (Nat.not_lt_zero _), ← onLevel_append]
    exact hlinked level hlevel
  | succ count ih =>
    obtain ⟨next, hfold, hnext⟩ := ih fun n hn => hprev n (Nat.lt_succ_of_lt hn)
    rw [List.range_succ, List.foldl_append, hfold]
    exact ⟨_, rfl, linked_link (l := { l with next }) hnext (hprev count (Nat.lt_succ_self _))
      hnodup hx⟩

theorem increaseHeight_range (start : ℕ) (rnd : Random) (hstart : start ≤ kMaxHeight) :
    start ≤ (increaseHeight start rnd).1 ∧ (increaseHeight start rnd).1 ≤ kMaxHeight := by
  induction start, rnd using increaseHeight.induct with
  | case1 start rnd hlt drawn hzero ih =>
    have hgrown := ih hlt
    rw [increaseHeight, if_pos hlt]
    dsimp only
    rw [if_pos hzero]
    exact ⟨Nat.le_of_succ_le hgrown.1, hgrown.2⟩
  | case2 start rnd hlt drawn hzero =>
    rw [increaseHeight, if_pos hlt]
    dsimp only
    rw [if_neg hzero]
    exact ⟨Nat.le_refl _, hstart⟩
  | case3 start rnd hlt =>
    rw [increaseHeight, if_neg hlt]
    exact ⟨Nat.le_refl _, hstart⟩

theorem randomHeight_range (rnd : Random) :
    0 < (randomHeight rnd).1 ∧ (randomHeight rnd).1 ≤ kMaxHeight :=
  increaseHeight_range 1 rnd (by decide)

theorem linkedTo_eq {as bs : List Node} {x : Node} (hx : x ∉ as ++ bs) (count level : ℕ) :
    linkedTo height as bs x count level = onLevel (update height x count) level (as ++ x :: bs) := by
  have hsame : ∀ ns : List Node, x ∉ ns →
      onLevel (update height x count) level ns = onLevel height level ns := by
    intro ns hns
    refine List.filter_congr fun n hn => ?_
    have hne : n ≠ x := fun heq => hns (heq ▸ hn)
    rw [Function.update_of_ne hne]
  rw [List.mem_append, not_or] at hx
  rw [linkedTo, onLevel_append, hsame as hx.1]
  congr 1
  rw [← hsame bs hx.2]
  unfold onLevel
  by_cases hlevel : level < count
  · rw [if_pos hlevel, List.filter_cons_of_pos (by simpa using hlevel)]
  · rw [if_neg hlevel, List.filter_cons_of_neg (by simpa using hlevel)]

/-- What is searched for comes between the nodes before it and the others, none of which equals it. -/
theorem Represents.between [Std.TransCmp compare] (h : Represents compare l nodes height) {key : α}
    (hfresh : ∀ n ∈ nodes, compare (l.key n) key ≠ .eq) :
    (∀ n ∈ nodes.takeWhile (l.isBefore compare key), compare (l.key n) key = .lt) ∧
      ∀ n ∈ nodes.dropWhile (l.isBefore compare key), compare key (l.key n) = .lt := by
  have hbefore : ∀ n ∈ nodes.takeWhile (l.isBefore compare key), l.isBefore compare key n = true :=
    fun n hn => List.mem_takeWhile_imp hn
  refine ⟨fun n hn => of_decide_eq_true (hbefore n hn), fun n hn => ?_⟩
  have hnot := of_decide_eq_false (h.forall_dropWhile (fun a b => isBefore_of_lt key) n hn)
  have hne := hfresh n ((List.dropWhile_suffix _).subset hn)
  apply Std.OrientedCmp.lt_of_gt
  cases hcompare : compare (l.key n) key with
  | lt => exact absurd hcompare hnot
  | eq => exact absurd hcompare hne
  | gt => rfl

/-- Nodes stay in order around one whose key is between theirs. -/
theorem pairwise_insert {key key' : Node → α} {as bs : List Node} {x : Node}
    (h : (as ++ bs).Pairwise fun a b => compare (key a) (key b) = .lt)
    (hsame : ∀ n ∈ as ++ bs, key' n = key n) (hbefore : ∀ n ∈ as, compare (key n) (key' x) = .lt)
    (hafter : ∀ n ∈ bs, compare (key' x) (key n) = .lt) :
    (as ++ x :: bs).Pairwise fun a b => compare (key' a) (key' b) = .lt := by
  have hrest : (as ++ bs).Pairwise fun a b => compare (key' a) (key' b) = .lt := by
    refine h.imp_of_mem fun {a b} ha hb hlt => ?_
    rwa [hsame a ha, hsame b hb]
  obtain ⟨has, hbs, hcross⟩ := List.pairwise_append.1 hrest
  refine List.pairwise_append.2 ⟨has, List.pairwise_cons.2 ⟨fun b hb => ?_, hbs⟩, fun a ha b hb => ?_⟩
  · rw [hsame b (List.mem_append_right _ hb)]
    exact hafter b hb
  · rcases List.mem_cons.1 hb with rfl | hb
    · rw [hsame a (List.mem_append_left _ ha)]
      exact hbefore a ha
    · exact hcross a ha b hb

/-- A node that is allocated is none of those that there are. -/
theorem Represents.size_notMem (h : Represents compare l nodes height) : l.size ∉ head :: nodes := by
  intro hmem
  rcases List.mem_cons.1 hmem with heq | hmem
  · exact Nat.lt_irrefl _ (heq ▸ h.size_pos)
  · exact Nat.lt_irrefl _ (h.allocated _ hmem).2

/-- No node is on a level that the list does not have. -/
theorem Represents.onLevel_eq_nil (h : Represents compare l nodes height) {level : ℕ}
    (hlevel : l.maxHeight ≤ level) {as : List Node} (has : ∀ n ∈ as, n ∈ nodes) :
    onLevel height level as = [] := by
  refine List.filter_eq_nil_iff.2 fun m hm => ?_
  have hlow := (h.high m (has m hm)).2
  exact fun hlt => absurd (of_decide_eq_true hlt) (by omega)

/-- The list with a new node that is linked on the first levels. -/
theorem Represents.linked_new {as bs : List Node} (h : Represents compare l (as ++ bs) height)
    {key : α} {count : ℕ} (hpos : 0 < count) (hcount : count ≤ kMaxHeight) {rnd : Random}
    {next : Node → ℕ → Option Node}
    (hnext : ∀ level < kMaxHeight,
      Linked (next · level) head (linkedTo height as bs l.size count level))
    (hbefore : ∀ n ∈ as, compare (l.key n) key = .lt)
    (hafter : ∀ n ∈ bs, compare key (l.key n) = .lt) :
    Represents compare ⟨update l.key l.size key, next, l.size + 1,
        if l.maxHeight < count then count else l.maxHeight, rnd⟩
      (as ++ l.size :: bs) (update height l.size count) := by
  have hx : l.size ∉ as ++ bs := fun hmem => h.size_notMem (List.mem_cons_of_mem _ hmem)
  have hne : ∀ n ∈ as ++ bs, n ≠ l.size := fun n hn heq => hx (heq ▸ hn)
  have hself : update l.key l.size key l.size = key := Function.update_self ..
  have hmem : ∀ n ∈ as ++ l.size :: bs, n = l.size ∨ n ∈ as ++ bs := by
    intro n hn
    simpa [or_left_comm] using hn
  have hmax : l.maxHeight ≤ (if l.maxHeight < count then count else l.maxHeight) ∧
      count ≤ (if l.maxHeight < count then count else l.maxHeight) := by
    split_ifs <;> omega
  have hpos' := h.maxHeight_pos
  have hle' := h.maxHeight_le
  refine ⟨fun level hlevel => ?_, ?_, fun n hn => ?_, fun n hn => ?_, Nat.succ_pos _, ?_, ?_⟩
  · rw [← linkedTo_eq hx]
    exact hnext level hlevel
  · refine pairwise_insert h.sorted (fun n hn => Function.update_of_ne (hne n hn) _ _) ?_ ?_
    · exact fun n hn => (congrArg (compare (l.key n)) hself).trans (hbefore n hn)
    · exact fun n hn => (congrArg (compare · (l.key n)) hself).trans (hafter n hn)
  · rcases hmem n hn with rfl | hn
    · exact ⟨h.size_pos, Nat.lt_succ_self _⟩
    · have hold := h.allocated n hn
      exact ⟨hold.1, Nat.lt_succ_of_lt hold.2⟩
  · rcases hmem n hn with rfl | hn
    · rw [Function.update_self]
      exact ⟨hpos, hmax.2⟩
    · have hold := h.high n hn
      rw [Function.update_of_ne (hne n hn)]
      exact ⟨hold.1, Nat.le_trans hold.2 hmax.1⟩
  · exact Nat.lt_of_lt_of_le hpos' hmax.1
  · show (if _ then _ else _) ≤ _
    split_ifs <;> omega

/-- A new node has a place of its own in the order of the nodes. -/
theorem Represents.insert [Std.TransCmp compare] (h : Represents compare l nodes height) {key : α}
    (hfresh : ∀ n ∈ nodes, compare (l.key n) key ≠ .eq) :
    ∃ l' height', l.insert compare key = some l' ∧
      Represents compare l' (nodes.takeWhile (l.isBefore compare key) ++
        l.size :: nodes.dropWhile (l.isBefore compare key)) height' ∧
      l'.key = update l.key l.size key := by
  obtain ⟨prev, hfind, hprev⟩ := h.findGreaterOrEqual key fun _ => head
  obtain ⟨hpos, hheight⟩ := randomHeight_range l.rnd
  obtain ⟨hbefore, hafter⟩ := h.between hfresh
  have hnodes : nodes = nodes.takeWhile (l.isBefore compare key) ++
      nodes.dropWhile (l.isBefore compare key) := List.takeWhile_append_dropWhile.symm
  generalize nodes.takeWhile (l.isBefore compare key) = as at *
  generalize nodes.dropWhile (l.isBefore compare key) = bs at *
  subst hnodes
  generalize hdrawn : randomHeight l.rnd = drawn at *
  -- on the levels that the list did not have the new node comes after the head
  have hheads : ∀ n < drawn.1, (if l.maxHeight ≤ n ∧ n < drawn.1 then head else prev n) =
      last head (onLevel height n as) := by
    intro n hn
    by_cases hhigh : l.maxHeight ≤ n
    · rw [if_pos ⟨hhigh, hn⟩, h.onLevel_eq_nil hhigh fun m hm => List.mem_append_left _ hm, last_nil]
    · rw [if_neg fun hlevels => hhigh hlevels.1, hprev n (by omega)]
  let l₀ : SkipList α := ⟨update l.key l.size key, l.next, l.size + 1,
    if l.maxHeight < drawn.1 then drawn.1 else l.maxHeight, drawn.2⟩
  obtain ⟨next, hfold, hnext⟩ := linked_links l₀ _ drawn.1 h.linked hheads
    (List.nodup_cons.2 ⟨h.head_notMem, h.nodup⟩) h.size_notMem
  refine ⟨{ l₀ with next }, _, ?_, h.linked_new hpos hheight hnext hbefore hafter, rfl⟩
  rw [SkipList.insert, hfind]
  simp only [Option.bind_eq_bind, Option.bind_some, hdrawn, newNode]
  exact congrArg some hfold

/-! ## What the list does -/

theorem represents_new (anyKey : α) (rnd : Random) :
    Represents compare { new anyKey with rnd } [] fun _ => 0 where
  linked _ _ := rfl
  sorted := .nil
  allocated _ hn := absurd hn List.not_mem_nil
  high _ hn := absurd hn List.not_mem_nil
  size_pos := Nat.zero_lt_one
  maxHeight_pos := Nat.zero_lt_one
  maxHeight_le := Nat.succ_le_succ (Nat.zero_le _)

variable (compare) in
/-- Some keys are inserted, one after another. -/
def insertAll (l : SkipList α) (keys : List α) : Option (SkipList α) :=
  keys.foldlM (insert compare) l

variable (compare) in
/-- The list is iterated over as one of these nodes, in this order. -/
structure Iterates (l : SkipList α) (nodes : List Node) : Prop where
  sorted : (nodes.map l.key).Pairwise fun a b => compare a b = .lt
  seekToFirst : l.seekToFirst = nodes.head?
  seekToLast : l.seekToLast = some nodes.getLast?
  next : ∀ as n bs, nodes = as ++ n :: bs → l.nextNode n = bs.head?
  prev : ∀ as n bs, nodes = as ++ n :: bs → l.prev compare n = some as.getLast?
  seek : ∀ target, l.seek compare target =
    some (nodes.find? fun n => (compare (l.key n) target).isGE)
  contains : ∀ key, l.contains compare key = some (nodes.any fun n => equal compare key (l.key n))

theorem last_eq_head {ns : List Node} (h : head ∉ ns) :
    (if last head ns = head then none else some (last head ns)) = ns.getLast? := by
  rcases List.eq_nil_or_concat ns with rfl | ⟨ns, n, rfl⟩
  · rfl
  · have hlast : last head (ns.concat n) = n := by
      rw [List.concat_eq_append, last_append]
      rfl
    have hne : n ≠ head := fun heq => h (by simp [heq])
    rw [hlast, if_neg hne, List.concat_eq_append, List.getLast?_concat]

theorem find?_eq (key : α) : nodes.find? (fun n => (compare (l.key n) key).isGE) =
    (nodes.dropWhile (l.isBefore compare key)).head? := by
  rw [List.find?_eq_head?_dropWhile_not, not_isGE]

theorem takeWhile_eq {before : Node → Bool} {as bs : List Node} {n : Node}
    (has : ∀ a ∈ as, before a = true) (hn : before n = false) :
    (as ++ n :: bs).takeWhile before = as := by
  rw [List.takeWhile_append_of_pos has, List.takeWhile_cons_of_neg (Bool.eq_false_iff.1 hn),
    List.append_nil]

/-- A key is in the list if the first node that is not before it has it. -/
theorem Represents.any_equal [Std.TransCmp compare] (h : Represents compare l nodes height) (key : α) :
    (nodes.dropWhile (l.isBefore compare key)).head?.any (fun n => equal compare key (l.key n)) =
      nodes.any fun n => equal compare key (l.key n) := by
  have hbefore : ∀ n ∈ nodes.takeWhile (l.isBefore compare key), l.isBefore compare key n = true :=
    fun n hn => List.mem_takeWhile_imp hn
  have hafter := h.forall_dropWhile fun a b => isBefore_of_lt key
  have hnodes : nodes = nodes.takeWhile (l.isBefore compare key) ++
      nodes.dropWhile (l.isBefore compare key) := List.takeWhile_append_dropWhile.symm
  generalize nodes.takeWhile (l.isBefore compare key) = as at *
  generalize nodes.dropWhile (l.isBefore compare key) = bs at *
  subst hnodes
  have has : (as.any fun n => equal compare key (l.key n)) = false := by
    refine List.any_eq_false.2 fun n hn heq => ?_
    have hlt : compare (l.key n) key = .lt := of_decide_eq_true (hbefore n hn)
    rw [Std.OrientedCmp.eq_symm (of_decide_eq_true heq)] at hlt
    cases hlt
  rw [List.any_append, has, Bool.false_or]
  cases bs with
  | nil => rfl
  | cons m bs =>
    have hbs : (bs.any fun n => equal compare key (l.key n)) = false := by
      refine List.any_eq_false.2 fun n hn heq => ?_
      have hmn := (List.pairwise_cons.1 (List.pairwise_append.1 h.sorted).2.1).1 n hn
      have hm : compare (l.key m) key = .lt :=
        Std.TransCmp.lt_of_lt_of_eq hmn (Std.OrientedCmp.eq_symm (of_decide_eq_true heq))
      exact absurd hm (of_decide_eq_false (hafter m List.mem_cons_self))
    rw [List.head?_cons, Option.any_some, List.any_cons, hbs, Bool.or_false]

theorem Represents.iterates [Std.TransCmp compare] (h : Represents compare l nodes height) :
    Iterates compare l nodes where
  sorted := List.pairwise_map.2 h.sorted
  seekToFirst := h.next_last [] nodes rfl
  seekToLast := by
    rw [SkipList.seekToLast, h.findLast, Option.map_some, last_eq_head h.head_notMem]
  next as n bs hnodes := by
    have hlast := h.next_last (as ++ [n]) bs (by simp [hnodes])
    rwa [last_append] at hlast
  prev as n bs hnodes := by
    subst hnodes
    have hbefore : ∀ a ∈ as, l.isBefore compare (l.key n) a = true := fun a ha =>
      decide_eq_true ((List.pairwise_append.1 h.sorted).2.2 a ha n List.mem_cons_self)
    have hself : l.isBefore compare (l.key n) n = false := by
      have hcompare : compare (l.key n) (l.key n) = .eq := Std.ReflCmp.compare_self
      rw [isBefore, hcompare]
      rfl
    have hhead : head ∉ as := fun hmem => h.head_notMem (List.mem_append_left _ hmem)
    rw [SkipList.prev, h.findLessThan, takeWhile_eq hbefore hself, Option.map_some,
      last_eq_head hhead]
  seek target := by
    obtain ⟨prev, hfind, -⟩ := h.findGreaterOrEqual target fun _ => head
    rw [SkipList.seek, hfind, find?_eq]
    rfl
  contains key := by
    obtain ⟨prev, hfind, -⟩ := h.findGreaterOrEqual key fun _ => head
    rw [SkipList.contains, hfind, ← h.any_equal key]
    rfl

theorem Represents.keys_insert (h : Represents compare l nodes height) {l' : SkipList α} {key : α}
    (hkey : l'.key = update l.key l.size key) (p : Node → Bool) :
    ((nodes.takeWhile p ++ l.size :: nodes.dropWhile p).map l'.key).Perm
      (nodes.map l.key ++ [key]) := by
  have hsame : nodes.map l'.key = nodes.map l.key := by
    refine List.map_congr_left fun n hn => ?_
    have hne : n ≠ l.size := fun heq => Nat.lt_irrefl _ (heq ▸ (h.allocated n hn).2)
    rw [hkey, Function.update_of_ne hne]
  have hnew : l'.key l.size = key := by rw [hkey, Function.update_self]
  have hperm : (nodes.takeWhile p ++ l.size :: nodes.dropWhile p).Perm (nodes ++ [l.size]) := by
    have hmiddle : (nodes.takeWhile p ++ l.size :: nodes.dropWhile p).Perm
        (l.size :: (nodes.takeWhile p ++ nodes.dropWhile p)) := List.perm_middle
    rw [List.takeWhile_append_dropWhile] at hmiddle
    exact hmiddle.trans (List.perm_append_singleton _ _).symm
  refine (hperm.map l'.key).trans ?_
  rw [List.map_append, hsame, List.map_singleton, hnew]

theorem Represents.insertAll [Std.TransCmp compare] (h : Represents compare l nodes height)
    {keys : List α} (hfresh : (nodes.map l.key ++ keys).Pairwise fun a b => compare a b ≠ .eq) :
    ∃ l' nodes' height', l.insertAll compare keys = some l' ∧
      Represents compare l' nodes' height' ∧ (nodes'.map l'.key).Perm (nodes.map l.key ++ keys) := by
  have hsymm : ∀ a b, compare a b ≠ .eq → compare b a ≠ .eq :=
    fun a b hne heq => hne (Std.OrientedCmp.eq_symm heq)
  induction keys generalizing l nodes height with
  | nil => exact ⟨l, nodes, height, rfl, h, by rw [List.append_nil]⟩
  | cons key keys ih =>
    have hnew : ∀ n ∈ nodes, compare (l.key n) key ≠ .eq := fun n hn =>
      (List.pairwise_append.1 hfresh).2.2 _ (List.mem_map_of_mem hn) key List.mem_cons_self
    obtain ⟨l', height', hinsert, h', hkey⟩ := h.insert hnew
    have hkeys := h.keys_insert hkey (l.isBefore compare key)
    have hperm : ((nodes.takeWhile (l.isBefore compare key) ++
        l.size :: nodes.dropWhile (l.isBefore compare key)).map l'.key ++ keys).Perm
        (nodes.map l.key ++ key :: keys) := by
      have happend := hkeys.append_right keys
      rwa [List.append_assoc] at happend
    obtain ⟨l'', nodes'', height'', hinserts, h'', hperm'⟩ :=
      ih h' ((hperm.pairwise_iff (hsymm _ _)).2 hfresh)
    refine ⟨l'', nodes'', height'', ?_, h'', hperm'.trans hperm⟩
    rw [SkipList.insertAll, List.foldlM_cons, hinsert]
    exact hinserts

/-- Whatever heights are drawn for them, keys that are inserted one after another are iterated over
in order, forwards and backwards and from any key on, and a key is found if it was inserted. -/
theorem insertAll_iterates [Std.TransCmp compare] (anyKey : α) (rnd : Random) {keys : List α}
    (hfresh : keys.Pairwise fun a b => compare a b ≠ .eq) :
    ∃ l nodes, insertAll compare { new anyKey with rnd } keys = some l ∧
      (nodes.map l.key).Perm keys ∧ Iterates compare l nodes := by
  obtain ⟨l, nodes, height, hinsert, h, hperm⟩ := (represents_new anyKey rnd).insertAll hfresh
  exact ⟨l, nodes, hinsert, hperm, h.iterates⟩

theorem insertAll_iterates_three : ∃ (l : SkipList ℕ) (nodes : List Node),
    insertAll Ord.compare { new 0 with rnd := ⟨1⟩ } [3, 1, 2] = some l ∧
      (nodes.map l.key).Perm [3, 1, 2] ∧ Iterates Ord.compare l nodes :=
  insertAll_iterates 0 ⟨1⟩ (by decide)

end SkipList

end PracticeSwift.LevelDb

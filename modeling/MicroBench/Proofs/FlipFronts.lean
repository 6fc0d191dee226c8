import Mathlib.Data.Nat.SuccPred
import Mathlib.Tactic.IntervalCases
import MicroBench.Proofs.FlipExtension
import MicroBench.Proofs.FlipRounds

namespace MicroBench.Proofs.FlipFronts

open Flip FlipExtension FlipRounds

variable {α β : Type} {registers : Registers} {c f i k m : ℕ} {p q : List ℕ}
  {a b r : List (ℕ × ℕ)} {e : ℕ × ℕ} {s t : ℕ × List (ℕ × ℕ)}

/-- The entries on top at some moment of the flips that are made from `s` on, the first and the last
included. An entry is the position that it names together with a place that it carries along. -/
def frontsFrom (registers : Registers) (s : ℕ × List (ℕ × ℕ)) : Set (ℕ × ℕ) :=
  {e | ∃ i t, afterFlips registers Prod.fst i s = some t ∧ t.2.head? = some e}

def fronts (registers : Registers) (p : List ℕ) : Set (ℕ × ℕ) := frontsFrom registers (0, p.zipIdx)

/-- The first `m` entries of two lists come from the same places, one by one. -/
structure Aligned (m : ℕ) (a b : List (ℕ × ℕ)) : Prop where
  pos : 0 < m
  left : m ≤ a.length
  right : m ≤ b.length
  places : (a.take m).map Prod.snd = (b.take m).map Prod.snd

theorem mem_frontsFrom_of_head? (h : s.2.head? = some e) : e ∈ frontsFrom registers s :=
  ⟨0, s, rfl, h⟩

theorem frontsFrom_subset_of_flipped (h : Round.of registers Prod.fst s = .flipped t) :
    frontsFrom registers t ⊆ frontsFrom registers s := by
  rintro e ⟨i, u, hu, he⟩
  exact ⟨i + 1, u, afterFlips_succ_eq_some_iff.2 ⟨t, h, hu⟩, he⟩

theorem mem_of_mem_frontsFrom (h : e ∈ frontsFrom registers s) : e ∈ s.2 := by
  obtain ⟨i, t, ht, he⟩ := h
  exact (afterFlips_perm ht).subset (List.mem_of_head? he)

theorem of_map (g : β → α) (name : α → ℕ) (c : ℕ) (p : List β) :
    Round.of registers name (c, p.map g) =
      (Round.of registers (name ∘ g) (c, p)).map (Prod.map id (List.map g)) := by
  cases p with
  | nil => rfl
  | cons x rest =>
    have hflip := flipTop_map g (name (g x)) (x :: rest)
    rw [List.map_cons] at hflip
    simp only [List.map_cons, Round.of, hflip, List.length_cons, List.length_map,
      Function.comp_apply]
    split
    · rfl
    · split
      · cases registers.increment 32 c <;> rfl
      · rfl

theorem afterFlips_map (registers : Registers) (g : β → α) (name : α → ℕ) (i c : ℕ) (p : List β) :
    afterFlips registers name i (c, p.map g) =
      (afterFlips registers (name ∘ g) i (c, p)).map (Prod.map id (List.map g)) := by
  induction i generalizing c p with
  | zero => rfl
  | succ i ih =>
    rw [afterFlips, of_map, afterFlips]
    cases Round.of registers (name ∘ g) (c, p) with
    | settled => rfl
    | fault fault => rfl
    | flipped t => exact ih t.1 t.2

/-- The places that the entries came from make no difference to the flips. -/
theorem afterFlips_zipIdx (i : ℕ) (p : List ℕ) : afterFlips registers id i (0, p) =
    (afterFlips registers Prod.fst i (0, p.zipIdx)).map (Prod.map id (List.map Prod.fst)) := by
  have h := afterFlips_map registers Prod.fst id i 0 p.zipIdx
  rwa [List.zipIdx_map_fst] at h

theorem take_flipTop {p : List α} (hk : k < m) (hm : m ≤ p.length) :
    (flipTop k p).take m = flipTop k (p.take m) := by
  have hlen : (p.take m).length = m := List.length_take_of_le hm
  have h := flipTop_append (p := p.take m) (hlen.symm ▸ hk) (p.drop m)
  rw [List.take_append_drop] at h
  rw [h]
  exact List.take_left' (by rw [length_flipTop, hlen])

theorem Aligned.flip (h : Aligned m a b) (hk : k < m) :
    Aligned m (flipTop k a) (flipTop k b) where
  pos := h.pos
  left := by rw [length_flipTop]; exact h.left
  right := by rw [length_flipTop]; exact h.right
  places := by
    rw [take_flipTop hk h.left, take_flipTop hk h.right, ← flipTop_map, ← flipTop_map, h.places]

/-- Entries on top that come from the same place are equal where the second list has nothing else
at that place. -/
theorem Aligned.head?_eq (h : Aligned m a b)
    (hread : ∀ e, a.head? = some e → ∀ y, (y, e.2) ∈ b → y = e.1) : b.head? = a.head? := by
  match a, b, h with
  | [], _, h => exact absurd (h.pos.trans_le h.left) (Nat.lt_irrefl 0)
  | _ :: _, [], h => exact absurd (h.pos.trans_le h.right) (Nat.lt_irrefl 0)
  | (x, s) :: a, (y, t) :: b, h =>
    obtain ⟨c, rfl⟩ := Nat.exists_eq_add_of_le' h.pos
    obtain ⟨rfl, -⟩ := List.cons.inj h.places
    obtain rfl := hread (x, s) rfl y List.mem_cons_self
    rfl

/-- Two runs of which the first only ever brings on top what names a place near enough, and what
the second has at the same place, go on alike and count alike. -/
theorem Aligned.afterFlips_eq (h : Aligned m a b)
    (hread : ∀ e ∈ frontsFrom registers (c, a), e.1 < m ∧ ∀ y, (y, e.2) ∈ b → y = e.1)
    (ha : afterFlips registers Prod.fst i (c, a) = some t) :
    ∃ r, afterFlips registers Prod.fst i (c, b) = some (t.1, r) ∧ r.head? = t.2.head? := by
  -- on the flips: equal entries on top flip equally deep, which keeps the places in step
  induction i generalizing a b c with
  | zero =>
    obtain rfl := Option.some.inj ha
    exact ⟨b, rfl, h.head?_eq fun e he ↦ (hread e (mem_frontsFrom_of_head? he)).2⟩
  | succ i ih =>
    obtain ⟨⟨d, a'⟩, hd, ht⟩ := afterFlips_succ_eq_some_iff.1 ha
    obtain ⟨e, he, hne, -, hcounted, rfl⟩ := Round.of_eq_flipped_iff.1 hd
    have hlt : e.1 < m := (hread e (mem_frontsFrom_of_head? he)).1
    have htop : b.head? = some e :=
      (h.head?_eq fun e he ↦ (hread e (mem_frontsFrom_of_head? he)).2).trans he
    have hb : Round.of registers Prod.fst (c, b) = .flipped (d, flipTop e.1 b) :=
      Round.of_eq_flipped_iff.2 ⟨e, htop, hne, hlt.trans_le h.right, hcounted, rfl⟩
    have hlater : ∀ e' ∈ frontsFrom registers (d, flipTop e.1 a),
        e'.1 < m ∧ ∀ y, (y, e'.2) ∈ flipTop e.1 b → y = e'.1 := by
      intro e' he'
      obtain ⟨hlt', hsame⟩ := hread e' (frontsFrom_subset_of_flipped hd he')
      exact ⟨hlt', fun y hy ↦ hsame y ((flipTop_perm _ _).subset hy)⟩
    obtain ⟨r, hr, hhead⟩ := ih (h.flip hlt) hlater ht
    exact ⟨r, afterFlips_succ_eq_some_iff.2 ⟨_, hb, hr⟩, hhead⟩

theorem aligned_zipIdx (hm : 0 < m) (hp : m ≤ p.length) (hq : m ≤ q.length) :
    Aligned m p.zipIdx q.zipIdx where
  pos := hm
  left := by rwa [List.length_zipIdx]
  right := by rwa [List.length_zipIdx]
  places := by
    rw [List.map_take, List.map_take, List.zipIdx_map_snd, List.zipIdx_map_snd,
      ← List.range_eq_range', ← List.range_eq_range', List.take_range, List.take_range,
      Nat.min_eq_left hp, Nat.min_eq_left hq]

theorem getElem?_of_mem_fronts (h : e ∈ fronts registers p) : p[e.2]? = some e.1 :=
  List.mem_zipIdx_iff_getElem?.1 (mem_of_mem_frontsFrom h)

/-- Where flips end with a count, each entry that was on top names a place in the list. -/
theorem fst_lt_length_of_mem_fronts (h : count registers p = .ok f)
    (he : e ∈ fronts registers p) : e.1 < p.length := by
  obtain ⟨i, ⟨c, a⟩, ha, htop⟩ := he
  have hplain : afterFlips registers id i (0, p) = some (c, a.map Prod.fst) := by
    rw [afterFlips_zipIdx, ha]
    rfl
  by_contra hge
  have hfront : (a.map Prod.fst).head? = some e.1 := by rw [List.head?_map, htop, Option.map_some]
  have hfault : Round.of registers id (c, a.map Prod.fst) = .fault (.outOfRange e.1 p.length) := by
    rw [← length_afterFlips hplain] at hge ⊢
    exact Round.of_eq_fault_iff.2 ⟨e.1, hfront, .inl ⟨Nat.le_of_not_lt hge, rfl⟩⟩
  cases h.symm.trans (count_of_fault hplain hfault)

theorem count_eq_of_fronts (h : count registers p = .ok f) (hm : 0 < m) (hp : m ≤ p.length)
    (hq : m ≤ q.length) (hnear : ∀ e ∈ fronts registers p, e.1 < m)
    (hsame : ∀ e ∈ fronts registers p, q[e.2]? = p[e.2]?) : count registers q = .ok f := by
  obtain ⟨i, r, hr, hsettled⟩ := exists_settled_of_count h
  rw [afterFlips_zipIdx] at hr
  obtain ⟨⟨d, a⟩, ha, hmap⟩ := Option.map_eq_some_iff.1 hr
  obtain ⟨rfl, rfl⟩ := Prod.mk.inj hmap
  have hread : ∀ e ∈ fronts registers p, e.1 < m ∧ ∀ y, (y, e.2) ∈ q.zipIdx → y = e.1 := by
    intro e he
    refine ⟨hnear e he, fun y hy ↦ ?_⟩
    have hy' : q[e.2]? = some y := List.mk_mem_zipIdx_iff_getElem?.1 hy
    exact Option.some.inj (hy'.symm.trans ((hsame e he).trans (getElem?_of_mem_fronts he)))
  obtain ⟨b, hb, hhead⟩ := (aligned_zipIdx hm hp hq).afterFlips_eq hread ha
  have hrun : afterFlips registers id i (0, q) = some (d, b.map Prod.fst) := by
    rw [afterFlips_zipIdx, hb]
    rfl
  refine count_of_settled hrun ?_
  rw [Round.of_eq_settled_iff, List.head?_map] at hsettled ⊢
  rwa [hhead]

theorem exists_greatest_front (hp : p ≠ []) (h : count registers p = .ok f) :
    ∃ M, IsGreatest (Prod.fst '' fronts registers p) M := by
  obtain ⟨x, rest, rfl⟩ := List.exists_cons_of_ne_nil hp
  have hbound : BddAbove (Prod.fst '' fronts registers (x :: rest)) := by
    refine ⟨(x :: rest).length, ?_⟩
    rintro _ ⟨e, he, rfl⟩
    exact (fst_lt_length_of_mem_fronts h he).le
  have htop : (x, 0) ∈ fronts registers (x :: rest) := mem_frontsFrom_of_head? rfl
  exact hbound.exists_isGreatest_of_nonempty ⟨x, (x, 0), htop, rfl⟩

/-- Only entries that come on top matter. Where flips end with a count, they end with the same
count for every list that has the same entries at the places from which those came that were on
top at some moment, if it is long enough for the greatest of them; in particular for every
longer list that begins with the one at hand. -/
theorem count_depends_on_fronts (hp : p ≠ []) (h : count registers p = .ok f) :
    (∃ M, IsGreatest (Prod.fst '' fronts registers p) M ∧
      ∀ q : List ℕ, M < q.length → (∀ s ∈ Prod.snd '' fronts registers p, q[s]? = p[s]?) →
        count registers q = .ok f) ∧
    ∀ t, count registers (p ++ t) = .ok f := by
  obtain ⟨M, hM⟩ := exists_greatest_front hp h
  have hnear : ∀ e ∈ fronts registers p, e.1 < M + 1 := by
    intro e he
    exact Nat.lt_succ_of_le (hM.2 ⟨e, he, rfl⟩)
  have hshort : M < p.length := by
    obtain ⟨e, he, rfl⟩ := hM.1
    exact fst_lt_length_of_mem_fronts h he
  have hq : ∀ q : List ℕ, M < q.length →
      (∀ s ∈ Prod.snd '' fronts registers p, q[s]? = p[s]?) → count registers q = .ok f := by
    intro q hlen hsame
    exact count_eq_of_fronts h M.succ_pos hshort hlen hnear fun e he ↦ hsame e.2 ⟨e, he, rfl⟩
  refine ⟨⟨M, hM, hq⟩, fun t ↦ hq (p ++ t) ?_ ?_⟩
  · rw [List.length_append]
    omega
  · rintro _ ⟨e, he, rfl⟩
    have hplace := (List.getElem?_eq_some_iff.1 (getElem?_of_mem_fronts he)).1
    exact List.getElem?_append_left hplace

/-- The entry 1 of `[3, 4, 1, 2, 0]` never comes on top: anything may lie in its place. -/
theorem count_depends_on_fronts_five : [3, 4, 1, 2, 0] ≠ [] ∧
    count .checked [3, 4, 1, 2, 0] = .ok 3 ∧
    (∀ s ∈ Prod.snd '' fronts .checked [3, 4, 1, 2, 0],
      [3, 4, 9, 2, 0, 3, 3][s]? = [3, 4, 1, 2, 0][s]?) ∧
    count .checked [3, 4, 9, 2, 0, 3, 3] = .ok 3 ∧
    count .checked [3, 4, 1, 2, 0, 9, 0] = .ok 3 := by
  have hp : [3, 4, 1, 2, 0] ≠ [] := List.cons_ne_nil _ _
  have hcount : count .checked [3, 4, 1, 2, 0] = .ok 3 := by cbv
  have hsame : ∀ s ∈ Prod.snd '' fronts .checked [3, 4, 1, 2, 0],
      [3, 4, 9, 2, 0, 3, 3][s]? = [3, 4, 1, 2, 0][s]? := by
    rintro _ ⟨e, ⟨i, a, ha, he⟩, rfl⟩
    have hi : i < 4 := by
      by_contra hge
      obtain ⟨j, rfl⟩ := Nat.exists_eq_add_of_le' (Nat.le_of_not_lt hge)
      cases ha
    interval_cases i
    all_goals
      obtain rfl := Option.some.inj ha
      obtain rfl := Option.some.inj he
      rfl
  obtain ⟨⟨M, hM, hall⟩, happend⟩ := count_depends_on_fronts hp hcount
  have hlen : M < [3, 4, 9, 2, 0, 3, 3].length := by
    obtain ⟨e, he, rfl⟩ := hM.1
    exact (fst_lt_length_of_mem_fronts hcount he).trans (by decide)
  exact ⟨hp, hcount, hsame, hall _ hlen hsame, happend [9, 0]⟩

end MicroBench.Proofs.FlipFronts

import Mathlib.Data.List.Sort
import Mathlib.Order.Defs.LinearOrder

/-!
# Lists in descending order of a key

A descending list is, at every key, the items above it, the items at it and the
items below it. So what stands before a position is known up to the tie it cuts.
-/

namespace Firstpass.Descending

variable {ι α : Type*} [LinearOrder α] {key : ι → α}

def Desc (key : ι → α) (s : List ι) : Prop := s.Pairwise fun a b => key b ≤ key a

/-- A stable sort on the key, the greatest first. -/
def sortDesc (key : ι → α) (s : List ι) : List ι := s.mergeSort fun a b => key b ≤ key a

theorem sortDesc_perm (key : ι → α) (s : List ι) : (sortDesc key s).Perm s :=
  List.mergeSort_perm s _

theorem desc_sortDesc (key : ι → α) (s : List ι) : Desc key (sortDesc key s) := by
  have hsorted : (sortDesc key s).Pairwise fun a b => decide (key b ≤ key a) :=
    List.pairwise_mergeSort
      (fun a b c hab hbc => decide_eq_true ((of_decide_eq_true hbc).trans (of_decide_eq_true hab)))
      (fun a b => by simpa using le_total (key b) (key a)) s
  exact hsorted.imp fun h => of_decide_eq_true h

theorem sortDesc_of_desc {s : List ι} (h : Desc key s) : sortDesc key s = s :=
  List.mergeSort_of_pairwise (h.imp fun hab => decide_eq_true hab)

theorem map_key_eq {s s' : List ι} (hs : Desc key s) (hs' : Desc key s') (h : s.Perm s') :
    s.map key = s'.map key := by
  have hdesc : (s.map key).Pairwise fun a b => b ≤ a := List.pairwise_map.mpr hs
  refine List.Perm.eq_of_pairwise ?_ hdesc (List.pairwise_map.mpr hs') (h.map key)
  exact fun a b _ _ hab hba => le_antisymm hba hab

-- ---------------------------------------------------------------------------
-- The three parts
-- ---------------------------------------------------------------------------

def above (key : ι → α) (t : α) (s : List ι) : List ι := s.filter (t < key ·)

def tied (key : ι → α) (t : α) (s : List ι) : List ι := s.filter (key · = t)

def below (key : ι → α) (t : α) (s : List ι) : List ι := s.filter (key · < t)

def atLeast (key : ι → α) (t : α) (s : List ι) : List ι := s.filter (t ≤ key ·)

theorem above_eq_nil {s : List ι} (h : ∀ x ∈ s, key x ≤ t) : above key t s = [] :=
  List.filter_eq_nil_iff.mpr fun x hx => by simpa using h x hx

theorem desc_split {s : List ι} (h : Desc key s) (t : α) :
    above key t s ++ (tied key t s ++ below key t s) = s := by
  induction s with
  | nil => rfl
  | cons x xs ih =>
    obtain ⟨hx, hxs⟩ := List.pairwise_cons.mp h
    have hrest := ih hxs
    rcases lt_trichotomy (key x) t with hlt | heq | hgt
    · have hall : ∀ y ∈ x :: xs, key y < t := by
        intro y hy
        rcases List.mem_cons.mp hy with rfl | hy
        · exact hlt
        · exact (hx y hy).trans_lt hlt
      have htied : tied key t (x :: xs) = [] :=
        List.filter_eq_nil_iff.mpr fun y hy => by simpa using (hall y hy).ne
      rw [above_eq_nil fun y hy => (hall y hy).le, htied]
      exact List.filter_eq_self.mpr fun y hy => decide_eq_true (hall y hy)
    · have hxs' : above key t xs = [] := above_eq_nil fun y hy => heq ▸ hx y hy
      rw [hxs', List.nil_append] at hrest
      rw [above_eq_nil fun y hy => ?_]
      · simpa [tied, below, heq] using hrest
      · rcases List.mem_cons.mp hy with rfl | hy
        · exact heq.le
        · exact heq ▸ hx y hy
    · simpa [above, tied, below, hgt, hgt.ne', hgt.not_gt] using hrest

theorem desc_atLeast {s : List ι} (h : Desc key s) (t : α) :
    above key t s ++ tied key t s = atLeast key t s := by
  have habove : (above key t s).filter (t ≤ key ·) = above key t s :=
    List.filter_eq_self.mpr fun x hx =>
      decide_eq_true (of_decide_eq_true (List.mem_filter.mp hx).2).le
  have htied : (tied key t s).filter (t ≤ key ·) = tied key t s :=
    List.filter_eq_self.mpr fun x hx =>
      decide_eq_true (of_decide_eq_true (List.mem_filter.mp hx).2).ge
  have hbelow : (below key t s).filter (t ≤ key ·) = [] :=
    List.filter_eq_nil_iff.mpr fun x hx => by
      simpa using of_decide_eq_true (List.mem_filter.mp hx).2
  have hfilter := congrArg (List.filter (t ≤ key ·)) (desc_split h t)
  rwa [List.filter_append, List.filter_append, habove, htied, hbelow, List.append_nil] at hfilter

theorem split_perm (key : ι → α) (t : α) (s : List ι) :
    (above key t s ++ (tied key t s ++ below key t s)).Perm s := by
  have hsort := sortDesc_perm key s
  have hparts := (hsort.filter (t < key ·)).append
    ((hsort.filter (key · = t)).append (hsort.filter (key · < t)))
  exact hparts.symm.trans ((List.Perm.of_eq (desc_split (desc_sortDesc key s) t)).trans hsort)

theorem atLeast_perm (key : ι → α) (t : α) (s : List ι) :
    (above key t s ++ tied key t s).Perm (atLeast key t s) := by
  have hsort := sortDesc_perm key s
  have hparts := (hsort.filter (t < key ·)).append (hsort.filter (key · = t))
  exact hparts.symm.trans ((List.Perm.of_eq (desc_atLeast (desc_sortDesc key s) t)).trans
    (hsort.filter (t ≤ key ·)))

theorem length_atLeast (key : ι → α) (t : α) (s : List ι) :
    (atLeast key t s).length = (above key t s).length + (tied key t s).length := by
  rw [← (atLeast_perm key t s).length_eq, List.length_append]

theorem atLeast_sublist (key : ι → α) (h : t ≤ t') (s : List ι) :
    (atLeast key t' s).Sublist (atLeast key t s) :=
  List.monotone_filter_right s fun _ hx => decide_eq_true (h.trans (of_decide_eq_true hx))

theorem atLeast_sublist_above (key : ι → α) (h : t < t') (s : List ι) :
    (atLeast key t' s).Sublist (above key t s) :=
  List.monotone_filter_right s fun _ hx => decide_eq_true (h.trans_le (of_decide_eq_true hx))

theorem length_atLeast_lt {s : List ι} (hx : x ∈ s) (h : key x < t) :
    (atLeast key t s).length < (atLeast key (key x) s).length := by
  have hsub : atLeast key t s = (atLeast key (key x) s).filter (t ≤ key ·) := by
    rw [atLeast, atLeast, List.filter_filter]
    refine List.filter_congr fun y _ => ?_
    simpa using fun hy => h.le.trans hy
  rw [hsub, List.length_filter_lt_length_iff_exists]
  exact ⟨x, List.mem_filter.mpr ⟨hx, by simp⟩, by simpa using h⟩

-- ---------------------------------------------------------------------------
-- Positions
-- ---------------------------------------------------------------------------

/-- A prefix that ends with an item has all above it and some of its tie. -/
theorem take_of_getElem? {s : List ι} (h : Desc key s) (hi : s[i]? = some x) :
    ∃ j, 0 < j ∧ j ≤ (tied key (key x) s).length ∧
      i + 1 = (above key (key x) s).length + j ∧
      s.take (i + 1) = above key (key x) s ++ (tied key (key x) s).take j := by
  have hsplit := desc_split h (key x)
  rw [← hsplit] at hi
  have hge : (above key (key x) s).length ≤ i := by
    by_contra hlt
    rw [List.getElem?_append_left (not_le.mp hlt)] at hi
    exact lt_irrefl _ (of_decide_eq_true (List.mem_filter.mp (List.mem_of_getElem? hi)).2)
  rw [List.getElem?_append_right hge] at hi
  have hlt : i - (above key (key x) s).length < (tied key (key x) s).length := by
    by_contra hle
    rw [List.getElem?_append_right (not_lt.mp hle)] at hi
    exact lt_irrefl _ (of_decide_eq_true (List.mem_filter.mp (List.mem_of_getElem? hi)).2)
  refine ⟨i - (above key (key x) s).length + 1, Nat.succ_pos _, hlt, by omega, ?_⟩
  conv_lhs => rw [← hsplit]
  rw [List.take_append, List.take_of_length_le (hge.trans i.le_succ), Nat.sub_add_comm hge,
    List.take_append_of_le_length hlt]

end Firstpass.Descending

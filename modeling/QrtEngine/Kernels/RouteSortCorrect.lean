import QrtEngine.Kernels.RouteSort

/-!
# The Route Sort Is a Padded Counting Sort

The four launches, in any order of their programs, compute the padded counting sort of
the library: the row of the counts a program reads holds the number of earlier routes of
each expert, `cumsum` holds the bucket starts, and a route is stored at its place.

Each launch has a lemma for one program and a lemma for the launch. A program is a loop,
so its lemma carries an invariant over the loop's counter; a launch runs its programs in
any order, so its lemma carries an invariant over the set of programs done. The counts
are kept in rows offset by one: row `p + 1` first holds the counts of chunk `p`, then,
after the second launch, row `p` holds the counts of the chunks before `p`, which is what
chunk `p` starts its ranks from.

## Main definitions

* `expertOf`: The expert of a route.
* `chunkCount`: The occurrences of an expert in a part of one chunk.
* `PaddedSorted`: What the finished buffers hold.

## Theorems

* `count_launch`, `prefix_launch`, `padded_launch`, `scatter_launch`: The four launches.
* `routeSort_correct`: The sort returns, with the buffers `PaddedSorted` describes.
-/

namespace QrtEngine

namespace RouteSort

open Buffer PaddedSort

/-- The expert of route `r`, as a natural number. -/
def expertOf (s : Buffers) (r : Nat) : Nat := (s.topkIds[r]?.getD 0).toNat

/-- The occurrences of an expert among the first `k` routes of chunk `p`. -/
def chunkCount (key : Nat → Nat) (p k e : Nat) : Int :=
  (occurrences key e (p * 256 + k) : Int) - occurrences key e (p * 256)

@[simp] theorem chunkCount_zero (key : Nat → Nat) (p e : Nat) : chunkCount key p 0 e = 0 := by
  unfold chunkCount
  rw [Nat.add_zero]
  omega

theorem chunkCount_succ (key : Nat → Nat) (p k e : Nat) :
    chunkCount key p (k + 1) e =
      chunkCount key p k e + if key (p * 256 + k) = e then 1 else 0 := by
  unfold chunkCount
  rw [← Nat.add_assoc, occurrences_succ]
  split_ifs <;> push_cast <;> ring

/-- A part of a chunk has at most as many routes of an expert as it has routes. -/
theorem chunkCount_bounds (key : Nat → Nat) (p k e : Nat) :
    0 ≤ chunkCount key p k e ∧ chunkCount key p k e ≤ k := by
  induction k with
  | zero => simp
  | succ k ih =>
      rw [chunkCount_succ]
      split_ifs <;> push_cast <;> omega

theorem occurrences_le (key : Nat → Nat) (e n : Nat) : occurrences key e n ≤ n := Nat.count_le _

/-- Running counts continue over a chunk. -/
theorem occurrences_add_chunkCount (key : Nat → Nat) (p e : Nat) :
    (occurrences key e (p * 256) : Int) + chunkCount key p 256 e =
      occurrences key e ((p + 1) * 256) := by
  unfold chunkCount
  rw [Nat.succ_mul]
  ring

theorem Shape.routes_eq (sh : Shape) : sh.routePrograms * 256 = sh.routes := by
  have hdvd := sh.routes_dvd
  unfold Shape.routePrograms Shape.routes
  omega

theorem Shape.blockM_pos (sh : Shape) : 0 < sh.blockM := by
  rcases sh.blockM_mem with h | h | h | h <;> omega

/-- An integer of thirty-two bits holds the number. -/
def Fits (n : Nat) : Prop := n < 2 ^ 31

theorem Fits.mono {m n : Nat} (h : Fits n) (hle : m ≤ n) : Fits m := lt_of_le_of_lt hle h

theorem i32_of_nonneg {x : Int} (hlow : 0 ≤ x) (hhigh : x < 2 ^ 31) : i32 x = x := by
  unfold i32
  rw [Int.bmod_def]
  omega

/-- Nothing is lost of a number that fits. -/
theorem i32_natCast {n : Nat} (h : Fits n) : i32 (n : Int) = n := by
  have hlt : n < 2 ^ 31 := h
  exact i32_of_nonneg (by omega) (by omega)

/-- The first route of a chunk. -/
theorem i32_source {p : Nat} (h : Fits (p * 256)) :
    i32 ((p : Int) * (routesPerSortProgram : Nat)) = (p * 256 : Nat) := by
  rw [routesPerSortProgram, ← Nat.cast_mul]
  exact i32_natCast h

/-- The first cell of a row. -/
theorem i32_row {p : Nat} (h : Fits (p * 256)) :
    i32 ((p : Int) * (experts : Nat)) = (p * 256 : Nat) := by
  rw [experts, ← Nat.cast_mul]
  exact i32_natCast h

/-- A cell of a row is inside the rows. -/
theorem cell_lt {p rows e : Nat} (hp : p < rows) (he : e < 256) : p * 256 + e < rows * 256 := by
  omega

/-- A number is a cell of a row exactly when it divides into that row and cell. -/
theorem eq_cell_iff {n p e : Nat} (he : e < 256) :
    n = p * 256 + e ↔ n / 256 = p ∧ n % 256 = e := by
  omega

section Launches

variable {programs routes : Nat} {key : Nat → Nat}

/-! ## Counting -/

/-- One program counts its chunk into the row after it, which is still empty, and nothing else. -/
theorem count_program (hroutes : programs * 256 = routes) (hwidth : Fits routes) (s : Buffers)
    (f : Nat → Int) (pid : Nat) (htopk : Holds s.topkIds routes (fun r => (key r : Int)))
    (hkey : ∀ r, r < routes → key r < 256)
    (hcounts : Holds s.tokenCounts ((programs + 1) * 256) f)
    (hpid : pid < programs) (hempty : ∀ e, e < 256 → f ((pid + 1) * 256 + e) = 0) :
    ∃ s', routeCountKernel s pid = some s' ∧ ∃ t f', s' = { s with tokenCounts := t } ∧
      Holds t ((programs + 1) * 256) f' ∧
      (∀ e, e < 256 → f' ((pid + 1) * 256 + e) = chunkCount key pid 256 e) ∧
      ∀ i, i / 256 ≠ pid + 1 → f' i = f i := by
  -- After `k` routes the row has the counts of those, and the other rows are as they were.
  refine range_rule (countStep pid) 256 (fun k s' => ∃ t f', s' = { s with tokenCounts := t } ∧
    Holds t ((programs + 1) * 256) f' ∧
    (∀ e, e < 256 → f' ((pid + 1) * 256 + e) = chunkCount key pid k e) ∧
    ∀ i, i / 256 ≠ pid + 1 → f' i = f i) s ?_ ?_
  · refine ⟨s.tokenCounts, f, rfl, hcounts, ?_, fun i _ => rfl⟩
    intro e he
    rw [chunkCount_zero]
    exact hempty e he
  · rintro k s' hk ⟨t, f', rfl, ht, hrow, hframe⟩
    have hr : pid * 256 + k < routes := by omega
    have hexpert := hkey _ hr
    have hbound := cell_lt (Nat.succ_lt_succ hpid) hexpert
    -- The indices of the source are integers; each is the number of a cell.
    have hsource : i32 ((pid : Int) * routesPerSortProgram) = (pid * 256 : Nat) :=
      i32_source (hwidth.mono (by omega))
    have hbase : i32 (i32 ((pid : Int) + 1) * experts) = ((pid + 1) * 256 : Nat) := by
      have hcast : (pid : Int) + 1 = (pid + 1 : Nat) := by omega
      rw [hcast, i32_natCast (hwidth.mono (by omega))]
      exact i32_row (hwidth.mono (by omega))
    have hload : loadAt s.topkIds (((pid * 256 : Nat) : Int) + (k : Nat)) =
        some (key (pid * 256 + k) : Int) := by
      rw [← Nat.cast_add]
      exact loadAt_holds htopk _ hr
    have hcell : (((pid + 1) * 256 : Nat) : Int) + (key (pid * 256 + k) : Int) =
        ((pid + 1) * 256 + key (pid * 256 + k) : Nat) := by
      rw [← Nat.cast_add]
    have hnext : i32 (f' ((pid + 1) * 256 + key (pid * 256 + k)) + 1) =
        f' ((pid + 1) * 256 + key (pid * 256 + k)) + 1 := by
      have hcount := chunkCount_bounds key pid k (key (pid * 256 + k))
      rw [hrow _ hexpert]
      exact i32_of_nonneg (by omega) (by omega)
    rcases storeAt_holds ht _ (f' ((pid + 1) * 256 + key (pid * 256 + k)) + 1) hbound with
      ⟨t', hstore, ht'⟩
    refine ⟨{ s with tokenCounts := t' }, ?_, t', _, rfl, ht', ?_, ?_⟩
    · simp only [countStep, hsource, hbase, hload, Option.bind_eq_bind, Option.bind_some, hcell,
        loadAt_holds ht _ hbound, hnext, hstore]
    -- The cell that was stored to has one more, which is the count of one more route.
    · intro e he
      rw [chunkCount_succ]
      by_cases heq : key (pid * 256 + k) = e
      · subst heq
        rw [Function.update_self, if_pos rfl, hrow _ he]
      · rw [Function.update_of_ne (by omega), if_neg heq, hrow e he, add_zero]
    · intro i hi
      rw [Function.update_of_ne (by omega)]
      exact hframe i hi

/-- After the first launch row `p + 1` holds the counts of chunk `p`. -/
theorem count_launch (hroutes : programs * 256 = routes) (hwidth : Fits routes)
    (order : List Nat) (horder : order.Perm (List.range programs)) (s : Buffers)
    (htopk : Holds s.topkIds routes (fun r => (key r : Int)))
    (hkey : ∀ r, r < routes → key r < 256)
    (hcounts : Holds s.tokenCounts ((programs + 1) * 256) (fun _ => 0)) :
    ∃ s', order.foldlM routeCountKernel s = some s' ∧
      ∃ t f, s' = { s with tokenCounts := t } ∧ Holds t ((programs + 1) * 256) f ∧
        (∀ p e, p < programs → e < 256 → f ((p + 1) * 256 + e) = chunkCount key p 256 e) ∧
        ∀ e, e < 256 → f e = 0 := by
  -- A row is counted when the program of its chunk has run, and zero before.
  have hrun := anyOrder_rule routeCountKernel programs order horder
    (fun done s' => ∃ t f, s' = { s with tokenCounts := t } ∧
      Holds t ((programs + 1) * 256) f ∧
      (∀ p e, p < programs → e < 256 →
        (done p → f ((p + 1) * 256 + e) = chunkCount key p 256 e) ∧
        (¬done p → f ((p + 1) * 256 + e) = 0)) ∧
      ∀ e, e < 256 → f e = 0) s
    ⟨s.tokenCounts, _, rfl, hcounts, fun p e _ _ => ⟨fun h => h.elim, fun _ => rfl⟩,
      fun e _ => rfl⟩ ?_
  · rcases hrun with ⟨s', hs', t, f, heq, ht, hrow, hzero⟩
    exact ⟨s', hs', t, f, heq, ht, fun p e hp he => (hrow p e hp he).1 hp, hzero⟩
  · rintro done pid s' hpid hnew ⟨t, f, rfl, ht, hrow, hzero⟩
    rcases count_program hroutes hwidth { s with tokenCounts := t } f pid htopk hkey ht hpid
      (fun e he => (hrow pid e hpid he).2 hnew) with ⟨s'', hs'', t', f', rfl, ht', hrow', hframe⟩
    refine ⟨_, hs'', t', f', rfl, ht', ?_, ?_⟩
    -- The program that has just run fills its own row, which was still zero.
    · intro p e hp he
      by_cases heq : p = pid
      · subst heq
        refine ⟨fun _ => ?_, fun hn => absurd (Or.inr rfl) hn⟩
        exact hrow' e he
      · rw [hframe _ (by omega)]
        refine ⟨fun hd => (hrow p e hp he).1 (hd.resolve_right heq),
          fun hn => (hrow p e hp he).2 (fun hd => hn (Or.inl hd))⟩
    · intro e he
      rw [hframe e (by omega)]
      exact hzero e he

/-! ## Running counts -/

/-- One program turns the column of its expert into running counts, and leaves the other
    columns and the first row. -/
theorem prefix_program (sh : Shape) (hprograms : sh.routePrograms = programs)
    (hwidth : Fits ((programs + 1) * 256)) (s : Buffers) (f : Nat → Int) (e : Nat) (he : e < 256)
    (hcounts : Holds s.tokenCounts ((programs + 1) * 256) f)
    (hcolumn : ∀ p, p < programs → f ((p + 1) * 256 + e) = chunkCount key p 256 e) :
    ∃ s', routePrefixByProgramKernel sh s e = some s' ∧ ∃ t f',
      s' = { s with tokenCounts := t } ∧ Holds t ((programs + 1) * 256) f' ∧
      (∀ p, p < programs →
        f' ((p + 1) * 256 + e) = occurrences key e ((p + 1) * 256)) ∧
      ∀ i, i % 256 ≠ e ∨ i < 256 → f' i = f i := by
  -- The running count is kept beside the buffer, and rows not yet reached are untouched.
  have hloop := range_rule (prefixStep e) programs
    (fun k state => state.1 = occurrences key e (k * 256) ∧ ∃ t f',
      state.2 = { s with tokenCounts := t } ∧ Holds t ((programs + 1) * 256) f' ∧
      (∀ p, p < k → f' ((p + 1) * 256 + e) = occurrences key e ((p + 1) * 256)) ∧
      ∀ i, i % 256 ≠ e ∨ i < 256 ∨ k < i / 256 → f' i = f i) (0, s) ?_ ?_
  · rcases hloop with ⟨state, hstate, -, t, f', hs', ht, hdone, hframe⟩
    refine ⟨state.2, ?_, t, f', hs', ht, hdone, ?_⟩
    · unfold routePrefixByProgramKernel
      rw [hprograms, hstate]
      rfl
    · intro i hi
      exact hframe i (hi.imp_right Or.inl)
  · refine ⟨?_, s.tokenCounts, f, rfl, hcounts, ?_, fun i _ => rfl⟩
    · rw [Nat.zero_mul, occurrences_zero]
      rfl
    · exact fun p hp => absurd hp (Nat.not_lt_zero p)
  · rintro k ⟨running, s'⟩ hk ⟨hrunning, t, f', hs', ht, hdone, hframe⟩
    dsimp only at hrunning hs'
    subst hs'
    have hbound := cell_lt (Nat.succ_lt_succ hk) he
    have hcell : i32 (i32 (((k : Int) + 1) * experts) + (e : Int)) = ((k + 1) * 256 + e : Nat) := by
      have hrow : i32 (((k : Int) + 1) * experts) = ((k + 1) * 256 : Nat) := by
        have hcast : (k : Int) + 1 = (k + 1 : Nat) := by omega
        rw [hcast]
        exact i32_row (hwidth.mono (by omega))
      rw [hrow, ← Nat.cast_add, i32_natCast (hwidth.mono (by omega))]
    -- The running count and the count of the chunk are the count up to the end of the chunk.
    have hvalue : i32 (running + f' ((k + 1) * 256 + e)) = occurrences key e ((k + 1) * 256) := by
      have hle := occurrences_le key e ((k + 1) * 256)
      have hlater : (k + 1) * 256 ≤ (programs + 1) * 256 := Nat.mul_le_mul_right 256 (by omega)
      rw [hframe _ (Or.inr (Or.inr (by omega))), hcolumn k hk, hrunning,
        occurrences_add_chunkCount key k e, i32_natCast (hwidth.mono (le_trans hle hlater))]
    rcases storeAt_holds ht _ (i32 (running + f' ((k + 1) * 256 + e))) hbound with
      ⟨t', hstore, ht'⟩
    refine ⟨(i32 (running + f' ((k + 1) * 256 + e)), { s with tokenCounts := t' }), ?_, hvalue,
      t', _, rfl, ht', ?_, ?_⟩
    · simp only [prefixStep, Option.bind_eq_bind, hcell, loadAt_holds ht _ hbound,
        Option.bind_some, hstore]
    · intro p hp
      by_cases heq : p = k
      · subst heq
        rw [Function.update_self, hvalue]
      · rw [Function.update_of_ne (by omega)]
        exact hdone p (by omega)
    · intro i hi
      rw [Function.update_of_ne (by omega)]
      exact hframe i (by omega)

/-- After the second launch row `p` holds the counts of the chunks before `p`. -/
theorem prefix_launch (sh : Shape) (hprograms : sh.routePrograms = programs)
    (hwidth : Fits ((programs + 1) * 256)) (order : List Nat)
    (horder : order.Perm (List.range 256)) (s : Buffers) (f : Nat → Int)
    (hcounts : Holds s.tokenCounts ((programs + 1) * 256) f)
    (hrow : ∀ p e, p < programs → e < 256 → f ((p + 1) * 256 + e) = chunkCount key p 256 e)
    (hzero : ∀ e, e < 256 → f e = 0) :
    ∃ s', order.foldlM (routePrefixByProgramKernel sh) s = some s' ∧
      ∃ t f', s' = { s with tokenCounts := t } ∧ Holds t ((programs + 1) * 256) f' ∧
        ∀ p e, p ≤ programs → e < 256 → f' (p * 256 + e) = occurrences key e (p * 256) := by
  -- A column is running when the program of its expert has run, and plain before.
  have hrun := anyOrder_rule (routePrefixByProgramKernel sh) 256 order horder
    (fun done s' => ∃ t f', s' = { s with tokenCounts := t } ∧
      Holds t ((programs + 1) * 256) f' ∧
      (∀ p e, p < programs → e < 256 →
        (done e → f' ((p + 1) * 256 + e) = occurrences key e ((p + 1) * 256)) ∧
        (¬done e → f' ((p + 1) * 256 + e) = chunkCount key p 256 e)) ∧
      ∀ e, e < 256 → f' e = 0) s
    ⟨s.tokenCounts, f, rfl, hcounts,
      fun p e hp he => ⟨fun h => h.elim, fun _ => hrow p e hp he⟩, hzero⟩ ?_
  · rcases hrun with ⟨s', hs', t, f', heq, ht, hdone, hfirst⟩
    refine ⟨s', hs', t, f', heq, ht, ?_⟩
    intro p e hp he
    -- Row zero was never written, and nothing comes before the first chunk.
    rcases p with _ | p
    · rw [Nat.zero_mul, Nat.zero_add, occurrences_zero, hfirst e he]
      rfl
    · exact (hdone p e (by omega) he).1 he
  · rintro done e s' he hnew ⟨t, f', rfl, ht, hdone, hfirst⟩
    rcases @prefix_program programs key sh hprograms hwidth { s with tokenCounts := t } f' e he ht
      (fun p hp => (hdone p e hp he).2 hnew) with ⟨s'', hs'', t', f'', rfl, ht', hcol, hframe⟩
    refine ⟨_, hs'', t', f'', rfl, ht', ?_, ?_⟩
    · intro p e' hp he'
      by_cases heq : e' = e
      · subst heq
        exact ⟨fun _ => hcol p hp, fun hn => absurd (Or.inr rfl) hn⟩
      · rw [hframe _ (Or.inl (by omega))]
        exact ⟨fun hd => (hdone p e' hp he').1 (hd.resolve_right heq),
          fun hn => (hdone p e' hp he').2 (fun hd => hn (Or.inl hd))⟩
    · intro e' he'
      rw [hframe e' (Or.inr he')]
      exact hfirst e' he'

/-! ## Bucket starts -/

/-- A padded size that thirty-two bits hold, with the sum that it is calculated from. -/
theorem cdiv32_mul_eq_roundUp {block : Nat} (hb : 0 < block) {c : Nat}
    (hwidth : Fits (c + block)) : i32 (cdiv32 c block * block) = roundUp block c := by
  have hpositive : ((c + block : Nat) : Int) - 1 = (c + block - 1 : Nat) := by omega
  have hlast : i32 (((c + block : Nat) : Int) - 1) = (c + block - 1 : Nat) := by
    rw [hpositive, i32_natCast (hwidth.mono (Nat.sub_le _ _))]
  have hquotient : cdiv32 c block * block = roundUp block c := by
    unfold cdiv32 roundUp
    rw [← Nat.cast_add, i32_natCast hwidth, hlast,
      Int.tdiv_eq_ediv_of_nonneg (Int.natCast_nonneg _)]
    push_cast
    rfl
  have hle := @roundUp_le block c
  rw [hquotient, i32_natCast (hwidth.mono (by omega))]

/-- The third launch stores the start of every bucket, and the padded total. -/
theorem padded_launch (sh : Shape) (hprograms : sh.routePrograms = programs)
    (hroutes : programs * 256 = routes) (hwidth : Fits sh.maxSortedRoutes)
    (hlast : routes + sh.blockM ≤ sh.maxSortedRoutes)
    (hsorted : start key sh.blockM routes 256 ≤ sh.maxSortedRoutes) (order : List Nat)
    (horder : order.Perm (List.range 1)) (s : Buffers) (f : Nat → Int)
    (hcounts : Holds s.tokenCounts ((programs + 1) * 256) f)
    (hrow : ∀ e, e < 256 → f (programs * 256 + e) = occurrences key e (programs * 256))
    (hcumsum : Holds s.cumsum 257 (fun _ => 0)) (htotal : s.totalPostPad.length = 1) :
    ∃ s', order.foldlM (routePaddedPrefixKernel sh) s = some s' ∧
      ∃ c g, s' = { s with cumsum := c, totalPostPad := [(start key sh.blockM routes 256 : Int)] } ∧
        Holds c 257 g ∧ ∀ e, e ≤ 256 → g e = start key sh.blockM routes e := by
  -- The grid of this launch is one program.
  have horder' : order = [0] := List.perm_singleton.mp horder
  subst horder'
  -- The running sum is the start of the next bucket.
  have hloop := range_rule (paddedStep sh) 256
    (fun k state => state.1 = start key sh.blockM routes k ∧ ∃ c g,
      state.2 = { s with cumsum := c } ∧ Holds c 257 g ∧
      ∀ e, e ≤ k → g e = start key sh.blockM routes e) (0, s) ?_ ?_
  · rcases hloop with ⟨state, hstate, hrunning, c, g, hs', hc, hstart⟩
    refine ⟨_, ?_, c, g, rfl, hc, hstart⟩
    have hsingle : ∃ old, s.totalPostPad = [old] := List.length_eq_one_iff.mp htotal
    rcases hsingle with ⟨old, hold⟩
    simp only [List.foldlM_cons, List.foldlM_nil, routePaddedPrefixKernel, experts, hstate, hs',
      hrunning, hold, Option.bind_eq_bind, Option.bind_some]
    rfl
  · refine ⟨?_, s.cumsum, _, rfl, hcumsum, ?_⟩
    · rw [start_zero]
      rfl
    · intro e he
      have he0 : e = 0 := Nat.le_zero.mp he
      rw [he0, start_zero]
      rfl
  · rintro k ⟨running, s'⟩ hk ⟨hrunning, c, g, hs', hc, hstart⟩
    dsimp only at hrunning hs'
    subst hs'
    have hcell : (sh.routePrograms : Int) * experts + ((k : Int) + 1) - 1 =
        (programs * 256 + k : Nat) := by
      rw [hprograms]
      simp only [experts, Nat.cast_add, Nat.cast_mul]
      omega
    have hnext : ((k : Int) + 1) = (k + 1 : Nat) := by omega
    -- What is loaded is the count of the expert over all routes.
    have hload := loadAt_holds hcounts _ (cell_lt (Nat.lt_succ_self programs) hk)
    rw [← hcell, hrow k hk, hroutes] at hload
    have hvalue : i32 (running + i32 (cdiv32 (occurrences key k routes) sh.blockM * sh.blockM)) =
        start key sh.blockM routes (k + 1) := by
      have hcount := occurrences_le key k routes
      have hmono := start_mono key sh.blockM routes (show k + 1 ≤ 256 from hk)
      rw [cdiv32_mul_eq_roundUp sh.blockM_pos (hwidth.mono (by omega)), hrunning, ← Nat.cast_add,
        ← start_succ, i32_natCast (hwidth.mono (le_trans hmono hsorted))]
    rcases storeAt_holds hc (k + 1) (start key sh.blockM routes (k + 1)) (by omega) with
      ⟨c', hstore, hc'⟩
    refine ⟨(start key sh.blockM routes (k + 1), { s with cumsum := c' }), ?_, rfl, c', _, rfl,
      hc', ?_⟩
    · rw [← hnext] at hstore
      simp only [paddedStep, Option.bind_eq_bind, hload, Option.bind_some, hvalue, hstore]
    · intro e he
      by_cases heq : e = k + 1
      · subst heq
        rw [Function.update_self]
      · rw [Function.update_of_ne heq]
        exact hstart e (by omega)

/-! ## Naming the blocks -/

/-- The owner buffer names the expert of every block of the experts already done. -/
def Named (key : Nat → Nat) (block routes : Nat) (done : Nat → Prop) (g : Nat → Int) : Prop :=
  ∀ e, e < 256 → done e → ∀ b, start key block routes e ≤ b * block →
    (b + 1) * block ≤ start key block routes (e + 1) → g b = e

/-- The offsets of an expert's segment, one for each of its blocks. -/
theorem stepRange_start (block q q' : Nat) (hb : 0 < block) (hq : q ≤ q') :
    stepRange ((q * block : Nat) : Int) ((q' * block : Nat) : Int) block =
      (List.range (q' - q)).map fun k => (((q + k) * block : Nat) : Int) := by
  -- Both ends are multiples of the block, so the quotient is exact.
  have hcount : cdiv (((q' * block : Nat) : Int) - ((q * block : Nat) : Int)) block =
      (q' - q : Nat) := by
    unfold cdiv
    have hdiff : ((q' * block : Nat) : Int) - ((q * block : Nat) : Int) + block - 1 =
        ((q' - q : Nat) : Int) * block + ((block : Int) - 1) := by
      rw [Nat.cast_sub hq]
      push_cast
      ring
    rw [hdiff, Int.add_comm, Int.add_mul_ediv_right _ _ (by omega),
      Int.ediv_eq_zero_of_lt (by omega) (by omega), zero_add]
  unfold stepRange
  rw [hcount, Int.toNat_natCast]
  refine List.map_congr_left fun k _ => ?_
  push_cast
  ring

/-- A block of one expert is outside the segment of another. -/
theorem block_outside {block e e' b q q' : Nat} (hb : 0 < block)
    (hq : start key block routes e' = q * block)
    (hq' : start key block routes (e' + 1) = q' * block) (hne : e ≠ e')
    (hlow : start key block routes e ≤ b * block)
    (hhigh : (b + 1) * block ≤ start key block routes (e + 1)) : b < q ∨ q' ≤ b := by
  by_contra hin
  have hin' : q ≤ b ∧ b + 1 ≤ q' := by omega
  have hnext : b * block < (b + 1) * block := Nat.mul_lt_mul_of_pos_right (by omega) hb
  -- The first place of the block is then in both segments.
  refine hne (bucket_unique key block routes hlow (lt_of_lt_of_le hnext hhigh) ?_ ?_)
  · rw [hq]
    exact Nat.mul_le_mul_right _ hin'.1
  · rw [hq']
    exact lt_of_lt_of_le hnext (Nat.mul_le_mul_right _ hin'.2)

/-- A program names the blocks of its expert and no others. -/
theorem name_program (sh : Shape) (s : Buffers) (done : Nat → Prop) (g c : Nat → Int) (pid : Nat)
    (hcumsum : Holds s.cumsum 257 c)
    (hstart : ∀ e, e ≤ 256 → c e = start key sh.blockM routes e)
    (htotal : start key sh.blockM routes 256 ≤ sh.maxRouteBlocks * sh.blockM)
    (hblocks : Holds s.blockExpertIds sh.maxRouteBlocks g)
    (hnamed : Named key sh.blockM routes done g) :
    ∃ s', nameBlocks sh s pid = some s' ∧ ∃ t g', s' = { s with blockExpertIds := t } ∧
      Holds t sh.maxRouteBlocks g' ∧
      Named key sh.blockM routes (fun e => done e ∨ e = pid) g' := by
  unfold nameBlocks
  by_cases hpid : pid < experts
  · rw [if_pos hpid]
    have hpid' : pid < 256 := hpid
    have hb := sh.blockM_pos
    -- The segment of the expert is the blocks from `q` to `q'`.
    rcases dvd_start key sh.blockM routes pid with ⟨q, hq⟩
    rcases dvd_start key sh.blockM routes (pid + 1) with ⟨q', hq'⟩
    rw [Nat.mul_comm] at hq hq'
    have hmono := start_mono key sh.blockM routes (Nat.le_succ pid)
    have hle : q ≤ q' := by
      rw [hq, hq'] at hmono
      exact Nat.le_of_mul_le_mul_right hmono hb
    have hlast : q' ≤ sh.maxRouteBlocks := by
      have hupper := start_mono key sh.blockM routes (show pid + 1 ≤ 256 from hpid')
      rw [hq'] at hupper
      exact Nat.le_of_mul_le_mul_right (le_trans hupper htotal) hb
    have hbegin : loadAt s.cumsum pid = some ((q * sh.blockM : Nat) : Int) := by
      rw [loadAt_holds hcumsum pid (by omega), hstart pid (by omega), hq]
    have hend : loadAt s.cumsum (pid + 1) = some ((q' * sh.blockM : Nat) : Int) := by
      have h := loadAt_holds hcumsum (pid + 1) (by omega)
      rw [hstart (pid + 1) (by omega), hq'] at h
      exact h
    -- The loop stores at the blocks `q`, ..., `q' - 1`, one for each iteration.
    have hloop := range_rule
      (fun s k => blockStep sh pid s (((q + k) * sh.blockM : Nat) : Int)) (q' - q)
      (fun k s' => ∃ t g', s' = { s with blockExpertIds := t } ∧ Holds t sh.maxRouteBlocks g' ∧
        (∀ b, q ≤ b → b < q + k → g' b = pid) ∧ ∀ b, b < q ∨ q' ≤ b → g' b = g b) s
      ⟨s.blockExpertIds, g, rfl, hblocks, fun b _ _ => by omega, fun _ _ => rfl⟩ ?_
    · rcases hloop with ⟨s', hs', t, g', heq, ht, hown, hother⟩
      refine ⟨s', ?_, t, g', heq, ht, ?_⟩
      · simp only [hbegin, hend, Option.bind_eq_bind, Option.bind_some]
        rw [stepRange_start sh.blockM q q' hb hle, List.foldlM_map]
        exact hs'
      · rintro e he hdone b hlow hhigh
        by_cases heq : e = pid
        · subst heq
          rw [hq] at hlow
          rw [hq'] at hhigh
          have hlow' : q ≤ b := Nat.le_of_mul_le_mul_right hlow hb
          have hhigh' : b + 1 ≤ q' := Nat.le_of_mul_le_mul_right hhigh hb
          exact hown b hlow' (by omega)
        · rw [hother b (block_outside hb hq hq' heq hlow hhigh)]
          exact hnamed e he (hdone.resolve_right heq) b hlow hhigh
    · rintro k s' hk ⟨t, g', rfl, ht, hown, hother⟩
      have hbound : q + k < sh.maxRouteBlocks := by omega
      have hindex : (((q + k) * sh.blockM : Nat) : Int).tdiv sh.blockM = (q + k : Nat) := by
        rw [Int.tdiv_eq_ediv_of_nonneg (Int.natCast_nonneg _), ← Int.natCast_ediv,
          Nat.mul_div_cancel _ hb]
      rcases storeAt_holds ht (q + k) pid hbound with ⟨t', hstore, ht'⟩
      refine ⟨{ s with blockExpertIds := t' }, ?_, t', _, rfl, ht', ?_, ?_⟩
      · simp only [blockStep, hindex, hstore, Option.bind_eq_bind, Option.bind_some]
      · intro b hlow hhigh
        by_cases heq : b = q + k
        · subst heq
          rw [Function.update_self]
        · rw [Function.update_of_ne heq]
          exact hown b hlow (by omega)
      · intro b hout
        rw [Function.update_of_ne (by omega)]
        exact hother b hout
  -- A program past the experts names nothing.
  · rw [if_neg hpid]
    refine ⟨s, rfl, s.blockExpertIds, g, rfl, hblocks, ?_⟩
    intro e he hdone
    have hne : e ≠ pid := fun h => hpid (h ▸ he)
    exact hnamed e he (hdone.resolve_right hne)

/-! ## Placing the routes -/

/-- The sorted buffer holds the placed routes at their places and the sentinel elsewhere. -/
structure Placed (key : Nat → Nat) (block routes : Nat) (sentinel : Int) (placed : Nat → Prop)
    (f : Nat → Int) : Prop where
  route : ∀ r, r < routes → placed r → f (place key block routes r) = r
  other : ∀ d, (∀ r, r < routes → placed r → place key block routes r ≠ d) → f d = sentinel

/-- Storing one more route at its place. -/
theorem Placed.store {block : Nat} {sentinel : Int} {placed : Nat → Prop} {f : Nat → Int}
    (h : Placed key block routes sentinel placed f) (hb : 0 < block) (r : Nat) (hr : r < routes) :
    Placed key block routes sentinel (fun x => placed x ∨ x = r)
      (Function.update f (place key block routes r) r) := by
  constructor
  · intro x hx hplaced
    by_cases heq : x = r
    · subst heq
      rw [Function.update_self]
    · rw [Function.update_of_ne (fun hp => heq (place_injective key hb hx hr hp))]
      exact h.route x hx (hplaced.resolve_right heq)
  · intro d hd
    rw [Function.update_of_ne (fun hp => hd r hr (Or.inr rfl) hp.symm)]
    exact h.other d (fun x hx hplaced => hd x hx (Or.inl hplaced))

theorem Placed.congr {block : Nat} {sentinel : Int} {placed placed' : Nat → Prop}
    {f : Nat → Int} (h : Placed key block routes sentinel placed f)
    (heq : ∀ r, r < routes → (placed r ↔ placed' r)) :
    Placed key block routes sentinel placed' f :=
  ⟨fun r hr hp => h.route r hr ((heq r hr).mpr hp),
    fun d hd => h.other d fun r hr hp => hd r hr ((heq r hr).mp hp)⟩

/-- The place of a route is inside its segment, and the segments are inside the buffer. -/
theorem place_lt_buffer (sh : Shape) {r : Nat} (hr : r < routes) (hexpert : key r < 256)
    (htotal : start key sh.blockM routes 256 ≤ sh.maxSortedRoutes) :
    place key sh.blockM routes r < sh.maxSortedRoutes := by
  have hsegment := place_lt_start_succ key sh.blockM_pos hr
  have hlast := start_mono key sh.blockM routes (Nat.succ_le_of_lt hexpert)
  exact lt_of_lt_of_le (lt_of_lt_of_le hsegment hlast) htotal

/-- An iteration stores its route at its place and counts it. The row of the chunk counts what
    was placed, so the count found there is the rank of the route among those of its expert. -/
theorem scatterStep_stores (hroutes : programs * 256 = routes) (sh : Shape)
    (hwidth : Fits sh.maxSortedRoutes) (hlast : routes ≤ sh.maxSortedRoutes) (s : Buffers)
    (f c g : Nat → Int) {pid k : Nat} (hpid : pid < programs) (hk : k < 256)
    (htopk : Holds s.topkIds routes (fun r => (key r : Int)))
    (hkey : ∀ r, r < routes → key r < 256)
    (hcounts : Holds s.tokenCounts ((programs + 1) * 256) f)
    (hrow : ∀ e, e < 256 → f (pid * 256 + e) = occurrences key e (pid * 256 + k))
    (hcumsum : Holds s.cumsum 257 c)
    (hstart : ∀ e, e ≤ 256 → c e = start key sh.blockM routes e)
    (htotal : start key sh.blockM routes 256 ≤ sh.maxSortedRoutes)
    (hsorted : Holds s.sortedRouteIds sh.maxSortedRoutes g) :
    ∃ t u, scatterStep pid s k = some { s with sortedRouteIds := u, tokenCounts := t } ∧
      Holds t ((programs + 1) * 256) (Function.update f (pid * 256 + key (pid * 256 + k))
        ((occurrences key (key (pid * 256 + k)) (pid * 256 + k) : Int) + 1)) ∧
      Holds u sh.maxSortedRoutes (Function.update g (place key sh.blockM routes (pid * 256 + k))
        ((pid * 256 + k : Nat) : Int)) := by
  have hr : pid * 256 + k < routes := by omega
  have hwide : Fits (pid * 256 + k + 1) := hwidth.mono (le_trans hr hlast)
  have hnow : Fits (pid * 256 + k) := hwide.mono (Nat.le_succ _)
  have hfirst : Fits (pid * 256) := hnow.mono (Nat.le_add_right _ _)
  have hexpert := hkey _ hr
  have hbound := cell_lt (Nat.lt_succ_of_lt hpid) hexpert
  have hslot := place_lt_buffer sh hr hexpert htotal
  -- The indices of the source are integers that fit; each is the number of a cell.
  have hroute : i32 (i32 ((pid : Int) * routesPerSortProgram) + (k : Nat)) =
      (pid * 256 + k : Nat) := by
    have hsource : i32 ((pid : Int) * routesPerSortProgram) = (pid * 256 : Nat) :=
      i32_source hfirst
    rw [hsource, ← Nat.cast_add, i32_natCast hnow]
  have hcell : i32 ((pid : Int) * experts) + (key (pid * 256 + k) : Int) =
      (pid * 256 + key (pid * 256 + k) : Nat) := by
    have hbase : i32 ((pid : Int) * experts) = (pid * 256 : Nat) :=
      i32_row hfirst
    rw [hbase, ← Nat.cast_add]
  have hrank := loadAt_holds hcounts _ hbound
  rw [hrow _ hexpert] at hrank
  have hbase := loadAt_holds hcumsum (key (pid * 256 + k)) (Nat.lt_succ_of_lt hexpert)
  rw [hstart _ (Nat.le_of_lt hexpert)] at hbase
  have hcounted : i32 ((occurrences key (key (pid * 256 + k)) (pid * 256 + k) : Int) + 1) =
      (occurrences key (key (pid * 256 + k)) (pid * 256 + k) : Int) + 1 := by
    have hle := occurrences_le key (key (pid * 256 + k)) (pid * 256 + k)
    rw [← Nat.cast_add_one]
    exact i32_natCast (hwide.mono (Nat.succ_le_succ hle))
  -- The rank and the start of the segment are the place of the route.
  have hdest : i32 ((occurrences key (key (pid * 256 + k)) (pid * 256 + k) : Int) +
      start key sh.blockM routes (key (pid * 256 + k))) =
        (place key sh.blockM routes (pid * 256 + k) : Nat) := by
    have hplace : occurrences key (key (pid * 256 + k)) (pid * 256 + k) +
        start key sh.blockM routes (key (pid * 256 + k)) =
          place key sh.blockM routes (pid * 256 + k) := Nat.add_comm _ _
    rw [← Nat.cast_add, hplace, i32_natCast (hwidth.mono (Nat.le_of_lt hslot))]
  rcases storeAt_holds hsorted _ ((pid * 256 + k : Nat) : Int) hslot with ⟨u, hstoreU, hu⟩
  rcases storeAt_holds hcounts _
    ((occurrences key (key (pid * 256 + k)) (pid * 256 + k) : Int) + 1) hbound with
    ⟨t, hstoreT, ht⟩
  refine ⟨t, u, ?_, ht, hu⟩
  simp only [scatterStep, Option.bind_eq_bind]
  rw [hroute, loadAt_holds htopk _ hr, Option.bind_some, hcell, hrank, Option.bind_some, hbase,
    Option.bind_some, hdest, hstoreU, Option.bind_some, hcounted, hstoreT, Option.bind_some]

/-- A program places the routes of its chunk, and counts them into its own row. -/
theorem scatter_program (hroutes : programs * 256 = routes) (sh : Shape)
    (hwidth : Fits sh.maxSortedRoutes) (hlast : routes ≤ sh.maxSortedRoutes) (s : Buffers)
    (sentinel : Int) (placed : Nat → Prop) (f c g : Nat → Int) (pid : Nat)
    (hpid : pid < programs) (htopk : Holds s.topkIds routes (fun r => (key r : Int)))
    (hkey : ∀ r, r < routes → key r < 256)
    (hcounts : Holds s.tokenCounts ((programs + 1) * 256) f)
    (hrow : ∀ e, e < 256 → f (pid * 256 + e) = occurrences key e (pid * 256))
    (hcumsum : Holds s.cumsum 257 c)
    (hstart : ∀ e, e ≤ 256 → c e = start key sh.blockM routes e)
    (htotal : start key sh.blockM routes 256 ≤ sh.maxSortedRoutes)
    (hsorted : Holds s.sortedRouteIds sh.maxSortedRoutes g)
    (hplaced : Placed key sh.blockM routes sentinel placed g) :
    ∃ s', scatterChunk s pid = some s' ∧ ∃ t f' u g',
      s' = { s with sortedRouteIds := u, tokenCounts := t } ∧
      Holds t ((programs + 1) * 256) f' ∧
      (∀ e, e < 256 → f' (pid * 256 + e) = occurrences key e ((pid + 1) * 256)) ∧
      (∀ i, i / 256 ≠ pid → f' i = f i) ∧
      Holds u sh.maxSortedRoutes g' ∧
      Placed key sh.blockM routes sentinel (fun r => placed r ∨ r / 256 = pid) g' := by
  -- After `k` routes the row counts those as well, and they are at their places.
  have hloop := range_rule (scatterStep pid) 256 (fun k s' => ∃ t f' u g',
      s' = { s with sortedRouteIds := u, tokenCounts := t } ∧
      Holds t ((programs + 1) * 256) f' ∧
      (∀ e, e < 256 → f' (pid * 256 + e) = occurrences key e (pid * 256 + k)) ∧
      (∀ i, i / 256 ≠ pid → f' i = f i) ∧
      Holds u sh.maxSortedRoutes g' ∧
      Placed key sh.blockM routes sentinel
        (fun r => placed r ∨ r / 256 = pid ∧ r % 256 < k) g') s ?_ ?_
  · rcases hloop with ⟨s', hs', t, f', u, g', heq, ht, hdone, hframe, hu, hg'⟩
    refine ⟨s', hs', t, f', u, g', heq, ht, ?_, hframe, hu, hg'.congr ?_⟩
    · intro e he
      rw [hdone e he, Nat.succ_mul]
    · intro r _
      have hmod := Nat.mod_lt r (show 256 > 0 by omega)
      simp only [hmod, and_true]
  · refine ⟨s.tokenCounts, f, s.sortedRouteIds, g, rfl, hcounts, ?_, fun _ _ => rfl, hsorted,
      hplaced.congr ?_⟩
    · intro e he
      rw [Nat.add_zero, hrow e he]
    · intro r _
      simp only [Nat.not_lt_zero, and_false, or_false]
  · rintro k s' hk ⟨t, f', u, g', rfl, ht, hdone, hframe, hu, hg'⟩
    have hr : pid * 256 + k < routes := by omega
    have hexpert := hkey _ hr
    rcases scatterStep_stores hroutes sh hwidth hlast
      { s with sortedRouteIds := u, tokenCounts := t } f' c g' hpid hk htopk hkey ht hdone hcumsum
      hstart htotal hu with ⟨t', u', hstep, ht', hu'⟩
    refine ⟨_, hstep, t', _, u', _, rfl, ht', ?_, ?_, hu',
      (hg'.store sh.blockM_pos _ hr).congr ?_⟩
    · intro e he
      rw [← Nat.add_assoc, occurrences_succ]
      by_cases heq : key (pid * 256 + k) = e
      · rw [heq, Function.update_self, if_pos rfl]
        push_cast
        rfl
      · have hne : pid * 256 + e ≠ pid * 256 + key (pid * 256 + k) :=
          fun h => heq (Nat.add_left_cancel h).symm
        rw [Function.update_of_ne hne, if_neg heq, hdone e he, Nat.add_zero]
    · intro i hi
      have hne : i ≠ pid * 256 + key (pid * 256 + k) :=
        fun h => hi ((eq_cell_iff hexpert).mp h).1
      rw [Function.update_of_ne hne]
      exact hframe i hi
    -- The routes placed so far are those before `k` and the one at `k`.
    · intro r _
      rw [eq_cell_iff hk]
      constructor
      · rintro ((h | ⟨h1, h2⟩) | ⟨h1, h2⟩)
        · exact Or.inl h
        · exact Or.inr ⟨h1, by omega⟩
        · exact Or.inr ⟨h1, by omega⟩
      · rintro (h | ⟨h1, h2⟩)
        · exact Or.inl (Or.inl h)
        · by_cases hlast : r % 256 = k
          · exact Or.inr ⟨h1, hlast⟩
          · exact Or.inl (Or.inr ⟨h1, by omega⟩)

/-- The last launch names every block and places every route. -/
theorem scatter_launch (sh : Shape) (hprograms : sh.routePrograms = programs)
    (hroutes : programs * 256 = routes) (hwidth : Fits sh.maxSortedRoutes)
    (hlast : routes ≤ sh.maxSortedRoutes) (order : List Nat)
    (horder : order.Perm (List.range (max programs 256))) (s : Buffers) (sentinel : Int)
    (f c b : Nat → Int) (htopk : Holds s.topkIds routes (fun r => (key r : Int)))
    (hkey : ∀ r, r < routes → key r < 256)
    (hcounts : Holds s.tokenCounts ((programs + 1) * 256) f)
    (hrow : ∀ p e, p ≤ programs → e < 256 → f (p * 256 + e) = occurrences key e (p * 256))
    (hcumsum : Holds s.cumsum 257 c)
    (hstart : ∀ e, e ≤ 256 → c e = start key sh.blockM routes e)
    (htotal : start key sh.blockM routes 256 ≤ sh.maxSortedRoutes)
    (htotal' : start key sh.blockM routes 256 ≤ sh.maxRouteBlocks * sh.blockM)
    (hsorted : Holds s.sortedRouteIds sh.maxSortedRoutes (fun _ => sentinel))
    (hblocks : Holds s.blockExpertIds sh.maxRouteBlocks b) :
    ∃ s', order.foldlM (routeScatterKernel sh) s = some s' ∧ ∃ t f' u g v b',
      s' = { s with sortedRouteIds := u, tokenCounts := t, blockExpertIds := v } ∧
      Holds t ((programs + 1) * 256) f' ∧
      (∀ p e, p ≤ programs → e < 256 →
        f' (p * 256 + e) = occurrences key e (min programs (p + 1) * 256)) ∧
      Holds u sh.maxSortedRoutes g ∧
      Placed key sh.blockM routes sentinel (fun _ => True) g ∧
      Holds v sh.maxRouteBlocks b' ∧ Named key sh.blockM routes (fun _ => True) b' := by
  -- A program that has run has named the blocks of its expert and placed its chunk.
  have hrun := anyOrder_rule (routeScatterKernel sh) (max programs 256) order horder
    (fun done s' => ∃ t f' u g v b',
      s' = { s with sortedRouteIds := u, tokenCounts := t, blockExpertIds := v } ∧
      Holds t ((programs + 1) * 256) f' ∧
      (∀ p e, p ≤ programs → e < 256 →
        (done p → f' (p * 256 + e) = occurrences key e (min programs (p + 1) * 256)) ∧
        (¬done p → f' (p * 256 + e) = occurrences key e (p * 256))) ∧
      Holds u sh.maxSortedRoutes g ∧
      Placed key sh.blockM routes sentinel (fun r => done (r / 256)) g ∧
      Holds v sh.maxRouteBlocks b' ∧ Named key sh.blockM routes done b') s ?_ ?_
  · rcases hrun with ⟨s', hs', t, f', u, g, v, b', heq, ht, hdone, hu, hg, hv, hb'⟩
    refine ⟨s', hs', t, f', u, g, v, b', heq, ht, ?_, hu, hg.congr ?_, hv, ?_⟩
    · intro p e hp he
      rcases Nat.lt_or_ge p (max programs 256) with hlt | hge
      · exact (hdone p e hp he).1 hlt
      · -- The last row is read by no program and keeps the counts of all the chunks.
        rw [(hdone p e hp he).2 (by omega)]
        have hlast : min programs (p + 1) = p := by omega
        rw [hlast]
    · intro r hr
      have hlt : r / 256 < max programs 256 := by omega
      simp only [hlt]
    · intro e he _
      exact hb' e he (lt_of_lt_of_le he (le_max_right _ _))
  · refine ⟨s.tokenCounts, f, s.sortedRouteIds, _, s.blockExpertIds, b, rfl, hcounts, ?_, hsorted,
      ⟨fun r _ h => h.elim, fun _ _ => rfl⟩, hblocks, fun e _ h => h.elim⟩
    exact fun p e hp he => ⟨fun h => h.elim, fun _ => hrow p e hp he⟩
  · rintro done pid s' hpid hnew ⟨t, f', u, g, v, b', rfl, ht, hdone, hu, hg, hv, hb'⟩
    rcases name_program sh { s with sortedRouteIds := u, tokenCounts := t, blockExpertIds := v }
      done b' c pid hcumsum hstart htotal' hv hb' with ⟨s1, hs1, v', b'', rfl, hv', hnamed⟩
    -- There is a chunk for the program, or it only names blocks.
    by_cases hlow : pid < programs
    · rcases scatter_program hroutes sh hwidth hlast
        { s with sortedRouteIds := u, tokenCounts := t, blockExpertIds := v' } sentinel
        (fun r => done (r / 256)) f' c g pid hlow htopk hkey ht
        (fun e he => (hdone pid e (Nat.le_of_lt hlow) he).2 hnew) hcumsum hstart htotal hu hg with
        ⟨s2, hs2, t', f'', u', g', rfl, ht', hcol, hframe, hu', hg'⟩
      refine ⟨_, ?_, t', f'', u', g', v', b'', rfl, ht', ?_, hu', hg', hv', hnamed⟩
      · unfold routeScatterKernel
        simp only [hs1, Option.bind_eq_bind, Option.bind_some, hprograms]
        rw [if_neg (by omega)]
        exact hs2
      · intro p e hp he
        by_cases heq : p = pid
        · subst heq
          refine ⟨fun _ => ?_, fun hn => absurd (Or.inr rfl) hn⟩
          have hmin : min programs (p + 1) = p + 1 := by omega
          rw [hcol e he, hmin]
        · rw [hframe _ (by omega)]
          exact ⟨fun hd => (hdone p e hp he).1 (hd.resolve_right heq),
            fun hn => (hdone p e hp he).2 (fun hd => hn (Or.inl hd))⟩
    · refine ⟨_, ?_, t, f', u, g, v', b'', rfl, ht, ?_, hu, hg.congr ?_, hv', hnamed⟩
      · unfold routeScatterKernel
        simp only [hs1, Option.bind_eq_bind, Option.bind_some, hprograms]
        rw [if_pos (by omega)]
      · intro p e hp he
        by_cases heq : p = pid
        · subst heq
          refine ⟨fun _ => ?_, fun hn => absurd (Or.inr rfl) hn⟩
          have hmin : min programs (p + 1) = p := by omega
          rw [(hdone p e hp he).2 hnew, hmin]
        · exact ⟨fun hd => (hdone p e hp he).1 (hd.resolve_right heq),
            fun hn => (hdone p e hp he).2 (fun hd => hn (Or.inl hd))⟩
      · intro r hr
        have hne : r / 256 ≠ pid := by omega
        simp only [hne, or_false]

end Launches

/-! ## The whole sort -/

/-- The first slot of an expert's segment: the padded sizes of the experts before it. -/
def segmentStart (sh : Shape) (s : Buffers) (e : Nat) : Nat :=
  start (expertOf s) sh.blockM sh.routes e

/-- The counts of the experts, each rounded up to the block, added up. -/
def paddedTotal (sh : Shape) (s : Buffers) : Nat :=
  ∑ e ∈ Finset.range 256, roundUp sh.blockM (occurrences (expertOf s) e sh.routes)

/-- What the finished buffers hold, `s` being the buffers the sort started from. -/
structure PaddedSorted (sh : Shape) (sentinel : Int) (s out : Buffers) : Prop where
  /-- Every route occurs exactly once. -/
  once : ∀ r : Nat, r < sh.routes → out.sortedRouteIds.count (r : Int) = 1
  /-- It occurs inside the segment of its own expert. -/
  segment : ∀ r d : Nat, r < sh.routes → out.sortedRouteIds[d]? = some (r : Int) →
    segmentStart sh s (expertOf s r) ≤ d ∧ d < segmentStart sh s (expertOf s r + 1)
  /-- Segments begin at multiples of the block. -/
  aligned : ∀ e, sh.blockM ∣ segmentStart sh s e
  /-- Inside a segment the routes increase. -/
  increasing : ∀ r r' d d' : Nat, r < sh.routes → r' < sh.routes →
    out.sortedRouteIds[d]? = some (r : Int) → out.sortedRouteIds[d']? = some (r' : Int) →
    expertOf s r = expertOf s r' → d < d' → r < r'
  /-- Every other slot still holds the sentinel. -/
  padding : ∀ d, d < sh.maxSortedRoutes → out.sortedRouteIds[d]? = some sentinel ∨
    ∃ r : Nat, r < sh.routes ∧ out.sortedRouteIds[d]? = some (r : Int)
  /-- The running sums are the segment starts. -/
  cumsum : ∀ e, e ≤ 256 → out.cumsum[e]? = some (segmentStart sh s e : Int)
  /-- The total is the sum of the padded counts of the experts. -/
  total : out.totalPostPad = [(paddedTotal sh s : Int)]
  total_le : paddedTotal sh s ≤ sh.maxSortedRoutes
  blocks_le : paddedTotal sh s / sh.blockM ≤ sh.maxRouteBlocks
  /-- Every block below the total is named by the expert whose segment it lies in. -/
  owner : ∀ b, b < paddedTotal sh s / sh.blockM →
    ∃ e : Nat, e < 256 ∧ out.blockExpertIds[b]? = some (e : Int) ∧
      segmentStart sh s e ≤ b * sh.blockM ∧ (b + 1) * sh.blockM ≤ segmentStart sh s (e + 1)

theorem expertOf_lt {sh : Shape} {sentinel : Int} {s : Buffers} (h : Fresh sh sentinel s) (r : Nat)
    (hr : r < sh.routes) : expertOf s r < 256 := by
  rw [← h.topkIds_length] at hr
  have hrange := h.topkIds_range _ (List.getElem_mem hr)
  unfold expertOf
  rw [List.getElem?_eq_getElem hr, Option.getD_some]
  omega

theorem holds_topkIds {sh : Shape} {sentinel : Int} {s : Buffers} (h : Fresh sh sentinel s) :
    Holds s.topkIds sh.routes (fun r => (expertOf s r : Int)) := by
  refine ⟨h.topkIds_length, ?_⟩
  intro r hr
  rw [← h.topkIds_length] at hr
  have hrange := h.topkIds_range _ (List.getElem_mem hr)
  simp only [expertOf, List.getElem?_eq_getElem hr, Option.getD_some,
    Int.toNat_of_nonneg hrange.1]

/-- The padded total fits the sorted buffer: at most a block less one is lost for each of
    the experts. -/
theorem total_le_maxSortedRoutes (sh : Shape) (key : Nat → Nat)
    (hkey : ∀ r, r < sh.routes → key r < 256) :
    start key sh.blockM sh.routes 256 ≤ sh.maxSortedRoutes := by
  have hle := start_le key sh.blockM sh.routes 256 hkey
  have hb := sh.blockM_pos
  unfold Shape.maxSortedRoutes
  omega

/-- So do the routes, and a block behind them. -/
theorem routes_add_le_maxSortedRoutes (sh : Shape) : sh.routes + sh.blockM ≤ sh.maxSortedRoutes := by
  have hb := sh.blockM_pos
  unfold Shape.maxSortedRoutes
  rcases sh.blockM_mem with h | h | h | h <;> omega

/-- So do the rows of the counts. -/
theorem rows_le_maxSortedRoutes (sh : Shape) :
    (sh.routePrograms + 1) * 256 ≤ sh.maxSortedRoutes := by
  have hrows := sh.routes_eq
  unfold Shape.maxSortedRoutes
  rcases sh.blockM_mem with h | h | h | h <;> omega

/-- The padded total is a number of blocks the owner buffer has room for. -/
theorem total_le_maxRouteBlocks (sh : Shape) (key : Nat → Nat)
    (hkey : ∀ r, r < sh.routes → key r < 256) :
    start key sh.blockM sh.routes 256 ≤ sh.maxRouteBlocks * sh.blockM :=
  le_trans (total_le_maxSortedRoutes sh key hkey) (le_roundUp sh.blockM_pos _)

/-- The sort returns, whatever the orders, with buffers that the padded counting sort
    describes, if thirty-two bits hold the indices of the sorted buffer. -/
theorem routeSort_described (sh : Shape) (hwidth : Fits sh.maxSortedRoutes)
    (order : Schedule sh) (sentinel : Int) (s : Buffers) (h : Fresh sh sentinel s) :
    ∃ out, routeSort sh order s = some out ∧ ∃ f c g b,
      Holds out.tokenCounts ((sh.routePrograms + 1) * 256) f ∧
      (∀ p e, p ≤ sh.routePrograms → e < 256 → f (p * 256 + e) =
        occurrences (expertOf s) e (min sh.routePrograms (p + 1) * 256)) ∧
      Holds out.cumsum 257 c ∧ (∀ e, e ≤ 256 → c e = segmentStart sh s e) ∧
      out.totalPostPad = [(paddedTotal sh s : Int)] ∧
      Holds out.sortedRouteIds sh.maxSortedRoutes g ∧
      Placed (expertOf s) sh.blockM sh.routes sentinel (fun _ => True) g ∧
      Holds out.blockExpertIds sh.maxRouteBlocks b ∧
      Named (expertOf s) sh.blockM sh.routes (fun _ => True) b := by
  have htopk := holds_topkIds h
  have hkey := expertOf_lt h
  have hcounts := holds_replicate ((sh.routePrograms + 1) * 256) 0
  rw [← h.tokenCounts_eq] at hcounts
  have hcumsum := holds_replicate 257 0
  rw [← h.cumsum_eq] at hcumsum
  have hsorted := holds_replicate sh.maxSortedRoutes sentinel
  rw [← h.sortedRouteIds_eq] at hsorted
  have hblocks := holds_getD s.blockExpertIds
  rw [h.blockExpertIds_length] at hblocks
  have hlast := routes_add_le_maxSortedRoutes sh
  have hroutes : sh.routes ≤ sh.maxSortedRoutes := by omega
  -- The four launches, each from what the one before has left.
  rcases count_launch sh.routes_eq (hwidth.mono hroutes) order.count order.count_perm s htopk hkey
    hcounts with ⟨s1, hs1, t1, f1, rfl, ht1, hrow1, hzero1⟩
  rcases prefix_launch sh rfl (hwidth.mono (rows_le_maxSortedRoutes sh)) order.prefixByProgram
    order.prefixByProgram_perm { s with tokenCounts := t1 } f1 ht1 hrow1 hzero1 with
    ⟨s2, hs2, t2, f2, rfl, ht2, hrow2⟩
  rcases padded_launch sh rfl sh.routes_eq hwidth hlast (total_le_maxSortedRoutes sh _ hkey)
    order.paddedPrefix order.paddedPrefix_perm
    { s with tokenCounts := t2 } f2 ht2 (fun e he => hrow2 _ e (le_refl _) he) hcumsum
    h.totalPostPad_length with ⟨s3, hs3, c, c', rfl, hc, hstart⟩
  rcases scatter_launch sh rfl sh.routes_eq hwidth hroutes order.scatter order.scatter_perm
    { s with
      tokenCounts := t2
      cumsum := c
      totalPostPad := [(start (expertOf s) sh.blockM sh.routes 256 : Int)] }
    sentinel f2 c' _ htopk hkey ht2 hrow2 hc hstart (total_le_maxSortedRoutes sh _ hkey)
    (total_le_maxRouteBlocks sh _ hkey) hsorted hblocks with
    ⟨s4, hs4, t, f, u, g, v, b, rfl, ht, hrow, hu, hg, hv, hb⟩
  refine ⟨{ s with
      tokenCounts := t
      cumsum := c
      totalPostPad := [(start (expertOf s) sh.blockM sh.routes 256 : Int)]
      sortedRouteIds := u
      blockExpertIds := v }, ?_, f, c', g, b, ht, hrow, hc, hstart, rfl, hu, hg, hv, hb⟩
  unfold routeSort
  simp only [hs1, hs2, hs3, hs4, Option.bind_eq_bind, Option.bind_some]

/-- A slot that reads a route is that route's place. -/
theorem Placed.slot {key : Nat → Nat} {block routes : Nat} {sentinel : Int} {g : Nat → Int}
    (h : Placed key block routes sentinel (fun _ => True) g)
    (hout : sentinel < 0 ∨ (routes : Int) ≤ sentinel) {r d : Nat} (hr : r < routes)
    (hd : g d = (r : Int)) : d = place key block routes r := by
  by_contra hne
  -- A slot that is the place of no route has the sentinel, which is no route.
  by_cases hplace : ∃ r', r' < routes ∧ place key block routes r' = d
  · rcases hplace with ⟨r', hr', rfl⟩
    have hroute := h.route r' hr' trivial
    have heq : r' = r := by omega
    exact hne (by rw [heq])
  · have hsentinel := h.other d (fun r' hr' _ hp => hplace ⟨r', hr', hp⟩)
    omega

/-- The four launches, their programs in any order, are a padded counting sort of the
    routes by expert, for every shape whose sorted buffer has indices of thirty-two bits. -/
theorem routeSort_correct (sh : Shape) (hwidth : sh.maxSortedRoutes < 2 ^ 31)
    (order : Schedule sh) (sentinel : Int) (s : Buffers) (h : Fresh sh sentinel s) :
    ∃ out, routeSort sh order s = some out ∧ PaddedSorted sh sentinel s out := by
  rcases routeSort_described sh hwidth order sentinel s h with
    ⟨out, hout, f, c, g, b, -, -, hc, hstart, htotal, hu, hg, hv, hb⟩
  have hkey := expertOf_lt h
  -- A slot that reads a route is the place of that route, so places settle everything.
  have hslot : ∀ r d : Nat, r < sh.routes → out.sortedRouteIds[d]? = some (r : Int) →
      d = place (expertOf s) sh.blockM sh.routes r :=
    fun r d hr hd => hg.slot h.sentinel_out hr (hu.getElem?_eq hd).2
  have hplace : ∀ r : Nat, r < sh.routes →
      place (expertOf s) sh.blockM sh.routes r < segmentStart sh s (expertOf s r + 1) :=
    fun r hr => place_lt_start_succ (expertOf s) sh.blockM_pos hr
  have hsize := total_le_maxSortedRoutes sh _ hkey
  have hinside : ∀ r : Nat, r < sh.routes →
      place (expertOf s) sh.blockM sh.routes r < sh.maxSortedRoutes := by
    intro r hr
    have hmono := start_mono (expertOf s) sh.blockM sh.routes (Nat.succ_le_of_lt (hkey r hr))
    exact lt_of_lt_of_le (lt_of_lt_of_le (hplace r hr) hmono) hsize
  refine ⟨out, hout, ?_⟩
  constructor
  case once =>
    intro r hr
    refine hu.count_eq_one (hinside r hr) (hg.route r hr trivial) ?_
    exact fun d _ hd => hg.slot h.sentinel_out hr hd
  case segment =>
    intro r d hr hd
    rw [hslot r d hr hd]
    exact ⟨start_le_place _ r, hplace r hr⟩
  case aligned =>
    exact fun e => dvd_start _ _ _ e
  case increasing =>
    intro r r' d d' hr hr' hd hd' hexpert hlt
    rw [hslot r d hr hd, hslot r' d' hr' hd'] at hlt
    by_contra hge
    rcases Nat.lt_or_eq_of_le (Nat.le_of_not_lt hge) with hgt | heq
    · have hback : place (expertOf s) sh.blockM sh.routes r' <
          place (expertOf s) sh.blockM sh.routes r := place_lt_place _ hexpert.symm hgt
      omega
    · rw [heq] at hlt
      exact lt_irrefl _ hlt
  case padding =>
    intro d hd
    by_cases htaken : ∃ r, r < sh.routes ∧ place (expertOf s) sh.blockM sh.routes r = d
    · rcases htaken with ⟨r, hr, rfl⟩
      exact Or.inr ⟨r, hr, by rw [hu.2 _ hd, hg.route r hr trivial]⟩
    · refine Or.inl ?_
      rw [hu.2 d hd, hg.other d (fun r hr _ hp => htaken ⟨r, hr, hp⟩)]
  case cumsum =>
    intro e he
    rw [hc.2 e (by omega), hstart e he]
  case total =>
    exact htotal
  case total_le =>
    exact hsize
  case blocks_le =>
    exact Nat.div_le_of_le_mul (by
      rw [Nat.mul_comm]
      exact total_le_maxRouteBlocks sh _ hkey)
  case owner =>
    intro b' hb'
    have hlt : b' * sh.blockM < paddedTotal sh s := by
      have hmul := Nat.mul_le_of_le_div _ _ _ (Nat.succ_le_of_lt hb')
      have hpos := sh.blockM_pos
      rw [Nat.succ_mul] at hmul
      omega
    rcases exists_owner (expertOf s) sh.blockM sh.routes 256 b' hlt with ⟨e, he, hlow, hhigh⟩
    have hbound : b' < sh.maxRouteBlocks := by
      have htop := total_le_maxRouteBlocks sh _ hkey
      exact Nat.lt_of_mul_lt_mul_right (lt_of_lt_of_le hlt htop)
    exact ⟨e, he, by rw [hv.2 b' hbound, hb e he trivial b' hlow hhigh], hlow, hhigh⟩

/-- The schedule that runs the programs of every launch in increasing order. -/
def Schedule.inOrder (sh : Shape) : Schedule sh :=
  { count := List.range sh.routePrograms
    prefixByProgram := List.range 256
    paddedPrefix := List.range 1
    scatter := List.range (max sh.routePrograms 256)
    count_perm := List.Perm.refl _
    prefixByProgram_perm := List.Perm.refl _
    paddedPrefix_perm := List.Perm.refl _
    scatter_perm := List.Perm.refl _ }

/-- The smallest shape. -/
def smallShape : Shape :=
  { tokens := 32, blockM := 16, tokens_pos := by decide, routes_dvd := by decide,
    blockM_mem := Or.inl rfl }

/-- Fresh buffers of a shape in which every route goes to one expert. -/
def oneExpert (sh : Shape) (expert : Int) : Buffers :=
  { topkIds := List.replicate sh.routes expert
    tokenCounts := List.replicate ((sh.routePrograms + 1) * 256) 0
    cumsum := List.replicate 257 0
    totalPostPad := [0]
    sortedRouteIds := List.replicate sh.maxSortedRoutes (-1)
    blockExpertIds := List.replicate sh.maxRouteBlocks 0 }

/-- One chunk of routes, all of them for expert seven. -/
theorem routeSort_oneExpert :
    ∃ out, routeSort smallShape (Schedule.inOrder smallShape) (oneExpert smallShape 7) = some out ∧
      PaddedSorted smallShape (-1) (oneExpert smallShape 7) out := by
  refine routeSort_correct smallShape (by decide) (Schedule.inOrder smallShape) (-1)
    (oneExpert smallShape 7)
    ⟨List.length_replicate, ?_, rfl, rfl, rfl, rfl, List.length_replicate, Or.inl (by decide)⟩
  intro x hx
  rw [List.eq_of_mem_replicate hx]
  exact ⟨by decide, by decide⟩

/-! ## A shape too wide -/

/-- Counting leaves the experts of the routes as they are. -/
theorem countStep_topkIds (pid : Nat) (ids : List Int) (s : Buffers) (offset : Nat) (s' : Buffers)
    (hkept : s.topkIds = ids) (hstep : countStep pid s offset = some s') : s'.topkIds = ids := by
  simp only [countStep, Option.bind_eq_bind, Option.bind_eq_some_iff, Option.some.injEq] at hstep
  rcases hstep with ⟨_, _, _, _, _, _, rfl⟩
  exact hkept

/-- The base of the row a program counts into, when the row is the one at `2 ^ 31`. -/
theorem countBase_wraps : i32 (i32 (((2 ^ 23 - 1 : Nat) : Int) + 1) * experts) = -(2 ^ 31) := by
  decide

/-- A program that counts into that row fails. -/
theorem routeCountKernel_wraps (s : Buffers) (hrange : ∀ x ∈ s.topkIds, 0 ≤ x ∧ x < 256) :
    routeCountKernel s (2 ^ 23 - 1) = none := by
  -- The first iteration already looks for its count before the buffer.
  refine foldlM_fails (countStep (2 ^ 23 - 1)) (fun s' => s'.topkIds = s.topkIds)
    (countStep_topkIds _ _) _ 0 (List.mem_range.mpr (by decide)) ?_ s rfl
  intro s1 hkept
  cases hload : loadAt s1.topkIds
      (i32 (((2 ^ 23 - 1 : Nat) : Int) * routesPerSortProgram) + (0 : Nat)) with
  | none =>
      rw [countStep, hload]
      rfl
  | some expert =>
      have hexpert := hrange expert (hkept ▸ mem_of_loadAt hload)
      rw [countStep, hload, countBase_wraps, Option.bind_eq_bind, Option.bind_some,
        loadAt_of_neg _ (by omega)]
      rfl

/-- A shape with two to the thirty-one routes, which `configure_shape` accepts. -/
def wideShape : Shape :=
  { tokens := 2 ^ 28, blockM := 16, tokens_pos := by decide, routes_dvd := by decide,
    blockM_mem := Or.inl rfl }

/-- The last chunk of that shape is counted at an index that wraps, so no sort of it returns. -/
theorem routeSort_wide :
    configureShape (2 ^ 28) 16 = some wideShape ∧
      Fresh wideShape (-1) (oneExpert wideShape 0) ∧
      ∀ (order : Schedule wideShape) (sentinel : Int) (s : Buffers), Fresh wideShape sentinel s →
        routeSort wideShape order s = none := by
  refine ⟨rfl, ⟨List.length_replicate, ?_, rfl, rfl, rfl, rfl, List.length_replicate,
    Or.inl (by decide)⟩, ?_⟩
  · intro x hx
    rw [List.eq_of_mem_replicate hx]
    exact ⟨by decide, by decide⟩
  · intro order sentinel s h
    have hmem : 2 ^ 23 - 1 ∈ order.count :=
      order.count_perm.mem_iff.mpr (List.mem_range.mpr (by decide))
    have hcount : order.count.foldlM routeCountKernel s = none := by
      refine foldlM_fails routeCountKernel (fun s' => s'.topkIds = s.topkIds) ?_ _ _ hmem ?_ s rfl
      · exact fun s1 pid s2 hkept hrun => foldlM_keeps (countStep pid) _
          (countStep_topkIds pid s.topkIds) _ s1 s2 hkept hrun
      · exact fun s1 hkept => routeCountKernel_wraps s1 (hkept ▸ h.topkIds_range)
    unfold routeSort
    rw [hcount]
    rfl

end RouteSort

end QrtEngine

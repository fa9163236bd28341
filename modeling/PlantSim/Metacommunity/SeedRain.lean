import PlantSim.Metacommunity.Seeds

/-!
# The seed rain the spec describes

The spec (§4.4) deals seeds out by sequential binomial sampling without replacement: with `j`
patches not yet processed, the next patch draws `Binomial(remaining, 1/j)` of every species, the
draw is taken from what remains, and `j` drops by one. `specDispersal` is that scheme, written from
the spec's words, against the same generator `Rbinom` the code draws from.

`dispersal_eq_specDispersal_iff`: `add_seeds` deals out what the scheme deals out exactly when
there are no patches, or one patch and one species.
-/

namespace PlantSim

namespace Metacommunity

variable {α σ Θ : Type} (R : Rbinom σ)

/-! ## The scheme -/

/-- Modelled from the spec (§4.4): one patch's draw with `j` patches not yet processed,
`Binomial(remaining[s], 1/j)` for each species `s` in order: the patch's counts, what remains, and
the generator after the draws. -/
def specDraw (j : Nat) : List Int → σ → List Int × List Int × σ
  | [], rng => ([], [], rng)
  | n :: ns, rng =>
    let d := R.draw rng n j
    let r := specDraw j ns d.2
    (d.1 :: r.1, (n - d.1) :: r.2.1, r.2.2)

/-- Modelled from the spec (§4.4): the counts handed to each of `j` patches not yet processed, in
order, from the seeds that remain. -/
def specDispersal : Nat → List Int → σ → List (List Int) × σ
  | 0, _, rng => ([], rng)
  | j + 1, remaining, rng =>
    let d := specDraw R (j + 1) remaining rng
    let r := specDispersal j d.2.1 d.2.2
    (d.1 :: r.1, r.2)

@[simp] theorem length_specDraw_fst (j : Nat) :
    ∀ (ns : List Int) (rng : σ), (specDraw R j ns rng).1.length = ns.length
  | [], _ => rfl
  | _ :: ns, _ => congrArg (· + 1) (length_specDraw_fst j ns _)

/-! ## The code against the scheme -/

/-- For seed counts `≥ 0`, `add_seeds` deals out what the spec's scheme deals out, generator state
included, exactly when there are no patches, or one patch and one species. -/
theorem dispersal_eq_specDispersal_iff (m : Metacommunity α Θ σ) (seeds : List Int)
    (hseeds : ∀ s ∈ seeds, 0 ≤ s) :
    dispersal R m seeds = .ok (specDispersal R (size m) seeds m.rng) ↔
      size m = 0 ∨ (size m = 1 ∧ seeds.length = 1) := by
  rcases Nat.lt_or_ge (size m) 2 with hm | hm
  · obtain h | h : size m = 0 ∨ size m = 1 := by omega
    · exact iff_of_true (by rw [dispersal, h]; rfl) (.inl h)
    · rcases seeds with _ | ⟨s, _ | ⟨t, rest⟩⟩
      · refine iff_of_false (fun hr => ?_) (by simp [h])
        rw [dispersal, h] at hr
        cases hr
      · refine iff_of_true ?_ (.inr ⟨h, rfl⟩)
        rw [dispersal_one_patch m h s [] (hseeds s (List.mem_cons_self _ _)), h]
        rfl
      · refine iff_of_false (fun hr => ?_) (by simp [h])
        rw [dispersal_one_patch m h s _ (hseeds s (List.mem_cons_self _ _)), h] at hr
        have := congrArg (fun r => r.1.map List.length) (Except.ok.inj hr)
        simp [specDispersal, specDraw] at this
  · refine iff_of_false (fun hr => ?_) (by omega)
    obtain ⟨e, he⟩ := dispersal_faults (R := R) m seeds hm
    rw [he] at hr
    cases hr

theorem dispersal_eq_specDispersal_iff_one_species :
    (∀ s ∈ [4], (0 : Int) ≤ s) ∧
      (dispersal meanRbinom
          (⟨⟨1, 1⟩, [[0]], 0.0, (), ()⟩ : Metacommunity (List Int) Unit Unit) [4] =
          .ok (specDispersal meanRbinom 1 [4] ()) ↔
        1 = 0 ∨ (1 = 1 ∧ [4].length = 1)) :=
  ⟨by decide, dispersal_eq_specDispersal_iff meanRbinom _ [4] (by decide)⟩

end Metacommunity

end PlantSim

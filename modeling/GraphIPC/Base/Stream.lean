-- SUMMARY: Greedy readers of frames out of a stream that arrives in pieces.
import Mathlib.Data.List.Basic
import Mathlib.Data.List.Infix

/-!
# Reading frames out of a stream

A reader looks at the front of what has arrived of a stream and either waits
for more, skips one element that cannot start a frame, or takes a frame of a
given length. A decision other than waiting does not change when more of the
stream arrives, and that is all that is needed for the frames taken to depend
on the stream alone and not on the pieces it arrived in.
-/

/-- A prefix of a list and what follows it: all of the list and a prefix of the
    rest, or a strict prefix of the list. -/
theorem prefix_append_cases {α : Type*} {p xs ys : List α} (h : p <+: xs ++ ys) :
    (∃ q, p = xs ++ q ∧ q <+: ys) ∨ (p <+: xs ∧ p.length < xs.length) := by
  by_cases hlen : xs.length ≤ p.length
  · obtain ⟨q, rfl⟩ := List.prefix_of_prefix_length_le (List.prefix_append xs ys) h hlen
    exact .inl ⟨q, rfl, (List.prefix_append_right_inj xs).1 h⟩
  · have hpre := List.prefix_of_prefix_length_le h (List.prefix_append xs ys) (by omega)
    exact .inr ⟨hpre, by omega⟩

/-- What a reader does with the front of its input. -/
inductive Verdict where
  | wait
  | skip
  | take (n : Nat)
  deriving DecidableEq, Repr

/-- A reader of frames. No decision is made on fewer than `header` elements, and
    every decision to act is stable under more input. -/
structure Reader (α : Type*) where
  header : Nat
  next : List α → Verdict
  header_pos : 0 < header
  wait_of_short : ∀ {xs}, xs.length < header → next xs = .wait
  take_bounds : ∀ {xs n}, next xs = .take n → 0 < n ∧ n ≤ xs.length
  skip_append : ∀ {xs} (ys), next xs = .skip → next (xs ++ ys) = .skip
  take_append : ∀ {xs n} (ys), next xs = .take n → next (xs ++ ys) = .take n

namespace Reader

variable {α : Type*} (r : Reader α)

theorem ne_nil_of_skip {xs : List α} (h : r.next xs = .skip) : xs ≠ [] := by
  rintro rfl
  rw [r.wait_of_short (by simpa using r.header_pos)] at h
  cases h

theorem length_pos_of_skip {xs : List α} (h : r.next xs = .skip) : 0 < xs.length :=
  List.length_pos_iff.2 (r.ne_nil_of_skip h)

/-- Act on the front of the input for as long as the reader does not wait: the
    frames taken, and what is left. -/
def drain (xs : List α) : List (List α) × List α :=
  match _h : r.next xs with
  | .wait => ([], xs)
  | .skip => drain (xs.drop 1)
  | .take n => (xs.take n :: (drain (xs.drop n)).1, (drain (xs.drop n)).2)
termination_by xs.length
decreasing_by
  · have := r.length_pos_of_skip _h
    simp only [List.length_drop]; omega
  all_goals
    have := r.take_bounds _h
    simp only [List.length_drop]; omega

theorem drain_of_wait {xs : List α} (h : r.next xs = .wait) : r.drain xs = ([], xs) := by
  rw [drain]; split <;> simp_all

theorem drain_of_skip {xs : List α} (h : r.next xs = .skip) :
    r.drain xs = r.drain (xs.drop 1) := by
  rw [drain]; split <;> simp_all

theorem drain_of_take {xs : List α} {n : Nat} (h : r.next xs = .take n) :
    r.drain xs = (xs.take n :: (r.drain (xs.drop n)).1, (r.drain (xs.drop n)).2) := by
  rw [drain]; split <;> simp_all

/-- Draining stops only when the reader waits. -/
theorem next_drain_rest (xs : List α) : r.next (r.drain xs).2 = .wait := by
  induction hn : xs.length using Nat.strong_induction_on generalizing xs with
  | h n ih =>
    cases hv : r.next xs with
    | wait => rw [drain_of_wait r hv]; exact hv
    | skip =>
      have := r.length_pos_of_skip hv
      rw [drain_of_skip r hv]
      exact ih _ (by simp only [List.length_drop]; omega) _ rfl
    | take m =>
      have := r.take_bounds hv
      rw [drain_of_take r hv]
      exact ih _ (by simp only [List.length_drop]; omega) _ rfl

/-- Draining is confluent: what is left of one piece can be drained together
    with the next piece. -/
theorem drain_append (xs ys : List α) :
    r.drain (xs ++ ys) =
      ((r.drain xs).1 ++ (r.drain ((r.drain xs).2 ++ ys)).1,
        (r.drain ((r.drain xs).2 ++ ys)).2) := by
  induction hn : xs.length using Nat.strong_induction_on generalizing xs with
  | h n ih =>
    cases hv : r.next xs with
    | wait => simp [drain_of_wait r hv]
    | skip =>
      have hpos := r.length_pos_of_skip hv
      rw [drain_of_skip r (r.skip_append ys hv), drain_of_skip r hv,
        List.drop_append_of_le_length (by omega)]
      exact ih _ (by simp only [List.length_drop]; omega) _ rfl
    | take m =>
      have hm := r.take_bounds hv
      rw [drain_of_take r (r.take_append ys hv), drain_of_take r hv,
        List.drop_append_of_le_length hm.2, List.take_append_of_le_length hm.2,
        ih _ (by simp only [List.length_drop]; omega) _ rfl]
      simp

/-- The positions at which a reader looks at its input while it is drained, each
    given by what is left from there on. -/
inductive Visits : List α → List α → Prop where
  | here (xs : List α) : Visits xs xs
  | skip {xs ys : List α} : r.next xs = .skip → Visits (xs.drop 1) ys → Visits xs ys
  | take {xs ys : List α} {n : Nat} : r.next xs = .take n → Visits (xs.drop n) ys → Visits xs ys

/-- More input does not change where the reader has looked. -/
theorem Visits.append {xs ys : List α} (h : r.Visits xs ys) (zs : List α) :
    r.Visits (xs ++ zs) (ys ++ zs) := by
  induction h with
  | here xs => exact .here _
  | @skip xs ys hskip _ ih =>
    refine .skip (r.skip_append zs hskip) ?_
    rw [List.drop_append_of_le_length (r.length_pos_of_skip hskip)]
    exact ih
  | @take xs ys n htake _ ih =>
    refine .take (r.take_append zs htake) ?_
    rw [List.drop_append_of_le_length (r.take_bounds htake).2]
    exact ih

/-- Every frame was taken at a position the reader has looked at, and so does it
    look at what is left. -/
theorem drain_visits (xs : List α) :
    (∀ f ∈ (r.drain xs).1, ∃ ys n, r.Visits xs ys ∧ r.next ys = .take n ∧ f = ys.take n) ∧
      r.Visits xs (r.drain xs).2 := by
  induction hn : xs.length using Nat.strong_induction_on generalizing xs with
  | h n ih =>
    cases hv : r.next xs with
    | wait =>
      rw [drain_of_wait r hv]
      refine ⟨fun f hf => ?_, .here xs⟩
      cases hf
    | skip =>
      have hpos := r.length_pos_of_skip hv
      obtain ⟨hframes, hrest⟩ := ih _ (by simp only [List.length_drop]; omega) (xs.drop 1) rfl
      rw [drain_of_skip r hv]
      refine ⟨fun f hf => ?_, .skip hv hrest⟩
      obtain ⟨ys, m, hvisits, htake, hf⟩ := hframes f hf
      exact ⟨ys, m, .skip hv hvisits, htake, hf⟩
    | take m =>
      have hm := r.take_bounds hv
      obtain ⟨hframes, hrest⟩ := ih _ (by simp only [List.length_drop]; omega) (xs.drop m) rfl
      rw [drain_of_take r hv]
      refine ⟨fun f hf => ?_, .take hv hrest⟩
      rcases List.mem_cons.1 hf with rfl | hf
      · exact ⟨xs, m, .here xs, hv, rfl⟩
      · obtain ⟨ys, k, hvisits, htake, hf⟩ := hframes f hf
        exact ⟨ys, k, .take hv hvisits, htake, hf⟩

/-! ## Streams made of noise and frames -/

/-- A frame: it is taken whole as soon as it is there, and not before. -/
structure IsFrame (f : List α) : Prop where
  next_append : ∀ ys, r.next (f ++ ys) = .take f.length
  next_prefix : ∀ p, p <+: f → p.length < f.length → r.next p = .wait

/-- Noise in front of `rest`: from none of its positions does the reader do
    anything but skip, once it has seen enough to decide. -/
def IsNoise (g rest : List α) : Prop :=
  ∀ u v, g = u ++ v → v ≠ [] → ∀ p, p <+: v ++ rest → r.header ≤ p.length → r.next p = .skip

variable {r}

theorem IsFrame.header_le {f : List α} (h : r.IsFrame f) : r.header ≤ f.length := by
  by_contra hlt
  have := h.next_append []
  rw [r.wait_of_short (by simpa using hlt)] at this
  cases this

theorem IsFrame.length_pos {f : List α} (h : r.IsFrame f) : 0 < f.length :=
  lt_of_lt_of_le r.header_pos h.header_le

theorem IsNoise.tail {x : α} {g rest : List α} (h : r.IsNoise (x :: g) rest) :
    r.IsNoise g rest := fun u v huv hv p hp hlen =>
  h (x :: u) v (by simp [huv]) hv p hp hlen

theorem IsNoise.head {x : α} {g rest p : List α} (h : r.IsNoise (x :: g) rest)
    (hp : p <+: x :: (g ++ rest)) (hlen : r.header ≤ p.length) : r.next p = .skip :=
  h [] (x :: g) rfl (by simp) p hp hlen

/-- The first of the frames that a stream is made of are taken as far as they are
    there, and the rest of the stream is made of the others. -/
theorem drain_frames {frames : List (List α)} (hframes : ∀ f ∈ frames, r.IsFrame f) {p q : List α}
    (h : p ++ q = frames.flatten) :
    ∃ taken rest, frames = taken ++ rest ∧ (r.drain p).1 = taken ∧
      (r.drain p).2 ++ q = rest.flatten := by
  induction frames generalizing p with
  | nil =>
    obtain ⟨rfl, rfl⟩ := List.append_eq_nil_iff.1 h
    have hwait : r.next [] = .wait := r.wait_of_short (by simpa using r.header_pos)
    exact ⟨[], [], rfl, by rw [r.drain_of_wait hwait], by rw [r.drain_of_wait hwait]; rfl⟩
  | cons f frames ih =>
    have hf := hframes f List.mem_cons_self
    have hp : p <+: f ++ frames.flatten := ⟨q, h⟩
    rcases prefix_append_cases hp with ⟨p, rfl, -⟩ | ⟨hpf, hlt⟩
    · -- the first frame is there
      rw [List.flatten_cons, List.append_assoc, List.append_cancel_left_eq] at h
      obtain ⟨taken, rest, rfl, htaken, hrest⟩ :=
        ih (fun f hf => hframes f (List.mem_cons_of_mem _ hf)) h
      rw [r.drain_of_take (hf.next_append p), List.take_left, List.drop_left]
      exact ⟨f :: taken, rest, rfl, by rw [htaken], hrest⟩
    · rw [r.drain_of_wait (hf.next_prefix p hpf hlt)]
      exact ⟨[], f :: frames, rfl, rfl, h⟩

end Reader

/-- A stream of frames, each after a possibly empty piece of noise, and noise at
    the end. -/
def Segments.stream {α : Type*} (segs : List (List α × List α)) (tail : List α) : List α :=
  segs.flatMap (fun s => s.1 ++ s.2) ++ tail

/-- The frames whose last element is among the first `n` elements of the
    stream. -/
def Segments.complete {α : Type*} : List (List α × List α) → Nat → List (List α)
  | [], _ => []
  | (g, f) :: segs, n =>
    if g.length + f.length ≤ n then f :: complete segs (n - (g.length + f.length)) else []

namespace Segments

variable {α : Type*} {r : Reader α}

@[simp] theorem stream_nil (tail : List α) : stream [] tail = tail := rfl

@[simp] theorem stream_cons (g f : List α) (segs : List (List α × List α)) (tail : List α) :
    stream ((g, f) :: segs) tail = g ++ (f ++ stream segs tail) := by
  simp [stream]

/-- The stream holds what its segments announce: frames, and noise between. -/
def Clean (r : Reader α) : List (List α × List α) → List α → Prop
  | [], tail => r.IsNoise tail []
  | (g, f) :: segs, tail =>
    r.IsNoise g (f ++ stream segs tail) ∧ r.IsFrame f ∧ Clean r segs tail

/-- Noise with too little behind it to show a frame leaves nothing but a short
    rest. -/
theorem drain_noise {g rest p : List α} (hnoise : r.IsNoise g rest) (hp : p <+: g ++ rest)
    (hlen : p.length ≤ g.length) :
    (r.drain p).1 = [] ∧ (r.drain p).2.length < r.header := by
  induction g generalizing p with
  | nil =>
    obtain rfl : p = [] := List.length_eq_zero_iff.1 (by simpa using hlen)
    have hw : r.next [] = .wait := r.wait_of_short (by simpa using r.header_pos)
    simp [r.drain_of_wait hw, r.header_pos]
  | cons x g ih =>
    by_cases hshort : p.length < r.header
    · simp [r.drain_of_wait (r.wait_of_short hshort), hshort]
    · have hskip := hnoise.head (by simpa using hp) (by omega)
      obtain ⟨y, p, rfl⟩ := List.exists_cons_of_ne_nil (r.ne_nil_of_skip hskip)
      have hp' : p <+: g ++ rest := (List.cons_prefix_cons.1 hp).2
      rw [r.drain_of_skip hskip, List.drop_one, List.tail_cons]
      exact ih hnoise.tail hp' (by simpa using hlen)

/-- Noise is skipped as soon as the frame behind it is there. -/
theorem drain_noise_frame {g f rest p : List α} (hnoise : r.IsNoise g (f ++ rest))
    (hframe : r.IsFrame f) (hp : p <+: rest) :
    r.drain (g ++ (f ++ p)) = (f :: (r.drain p).1, (r.drain p).2) := by
  induction g with
  | nil =>
    rw [List.nil_append, r.drain_of_take (hframe.next_append p), List.take_left, List.drop_left]
  | cons x g ih =>
    have hpre : x :: (g ++ (f ++ p)) <+: x :: (g ++ (f ++ rest)) := by simpa using hp
    have hskip : r.next (x :: (g ++ (f ++ p))) = .skip := by
      refine hnoise.head hpre ?_
      have := hframe.header_le
      simp only [List.length_cons, List.length_append]; omega
    rw [List.cons_append, r.drain_of_skip hskip, List.drop_one, List.tail_cons]
    exact ih hnoise.tail

/-- Noise before a frame of which the end is missing: nothing is taken, and what
    is left is short or a piece of the frame. -/
theorem drain_noise_prefix {g f rest p : List α} (hnoise : r.IsNoise g (f ++ rest))
    (hframe : r.IsFrame f) (hp : p <+: f) (hlen : p.length < f.length) :
    (r.drain (g ++ p)).1 = [] ∧
      ((r.drain (g ++ p)).2.length < r.header ∨ (r.drain (g ++ p)).2.length < f.length) := by
  induction g with
  | nil =>
    rw [List.nil_append, r.drain_of_wait (hframe.next_prefix p hp hlen)]
    exact ⟨rfl, .inr hlen⟩
  | cons x g ih =>
    by_cases hshort : (x :: (g ++ p)).length < r.header
    · rw [List.cons_append, r.drain_of_wait (r.wait_of_short hshort)]
      exact ⟨rfl, .inl hshort⟩
    · have hpre : x :: (g ++ p) <+: x :: (g ++ (f ++ rest)) := by
        simpa using hp.trans (List.prefix_append f rest)
      rw [List.cons_append, r.drain_of_skip (hnoise.head hpre (by omega)), List.drop_one,
        List.tail_cons]
      exact ih hnoise.tail

/-- Draining what has arrived of a clean stream takes exactly the frames that
    are complete, and leaves too little for a decision or a piece of a frame. -/
theorem drain_clean {segs : List (List α × List α)} {tail p : List α}
    (hclean : Clean r segs tail) (hp : p <+: stream segs tail) :
    (r.drain p).1 = complete segs p.length ∧
      ((r.drain p).2.length < r.header ∨
        ∃ s ∈ segs, (r.drain p).2.length < s.2.length) := by
  induction segs generalizing p with
  | nil =>
    have hp' : p <+: tail ++ [] := by simpa using hp
    obtain ⟨h₁, h₂⟩ := drain_noise hclean hp' (by simpa using hp'.length_le)
    exact ⟨by simpa [complete] using h₁, .inl h₂⟩
  | cons s segs ih =>
    obtain ⟨g, f⟩ := s
    obtain ⟨hnoise, hframe, hclean⟩ := hclean
    rw [stream_cons] at hp
    rw [← List.append_assoc] at hp
    rcases prefix_append_cases hp with ⟨p, rfl, hp'⟩ | ⟨hp', hlt⟩
    · -- the first frame is complete
      obtain ⟨h₁, h₂⟩ := ih hclean hp'
      rw [List.append_assoc, drain_noise_frame hnoise hframe hp']
      refine ⟨?_, h₂.imp_right fun ⟨s, hs, hlt⟩ => ⟨s, by simp [hs], hlt⟩⟩
      have hdone : g.length + f.length ≤ (g ++ (f ++ p)).length := by
        simp only [List.length_append]; omega
      have hrest : (g ++ (f ++ p)).length - (g.length + f.length) = p.length := by
        simp only [List.length_append]; omega
      rw [complete, if_pos hdone, hrest, h₁]
    · -- the end of the first frame is missing
      rw [List.length_append] at hlt
      have hnone : complete ((g, f) :: segs) p.length = [] := by rw [complete, if_neg (by omega)]
      rw [hnone]
      rcases prefix_append_cases hp' with ⟨p, rfl, hpf⟩ | ⟨hpg, hg⟩
      · rw [List.length_append] at hlt
        obtain ⟨h₁, h₂⟩ := drain_noise_prefix hnoise hframe hpf (by omega)
        exact ⟨h₁, h₂.imp_right fun hlt => ⟨(g, f), by simp, hlt⟩⟩
      · have hpre : p <+: g ++ (f ++ stream segs tail) := hpg.trans (List.prefix_append ..)
        obtain ⟨h₁, h₂⟩ := drain_noise hnoise hpre hg.le
        exact ⟨h₁, .inl h₂⟩

end Segments

-- SUMMARY: How many clients the poll list of the router holds, and what accepting one more does.
import GraphIPC.Router.Process
import Mathlib.Data.List.Nodup

/-!
# Accepting connections

A connection that was accepted is put into the first entry of the poll list that is
free. The loop that looks for it leaves its index behind the last entry if there is none,
and the entry at this index is then compared with the new descriptor.
-/

/-- What a step does to the descriptors of the clients, as the history records it. -/
def Output.openFds (fds : List Int) : Output → List Int
  | .accepted fd => fd :: fds
  | .closed fd => fds.erase fd
  | _ => fds

/-- The descriptors that were accepted and not closed since. -/
def openFds (tr : List (Act × Output)) : List Int :=
  tr.foldl (fun fds e => e.2.openFds fds) []

@[simp] theorem openFds_snoc (tr : List (Act × Output)) (e : Act × Output) :
    openFds (tr ++ [e]) = e.2.openFds (openFds tr) := by
  simp [openFds]

/-- A descriptor is in one entry of the poll list, and that is not the first. -/
def Router.OneSlot {c : RouterConfig} (s : Router c) (fd : Int) : Prop :=
  ∃ i, i ≠ 0 ∧ (s.pollList i).fd = fd ∧ ∀ j, (s.pollList j).fd = fd → j = i

/-- What is asked of the accept path: it stays within the poll list, the new descriptor is
    then in one entry or closed, and the entries that were in use are left alone. -/
def Router.AcceptsSafely {c : RouterConfig} (s : Router c) (fd : Int) : Prop :=
  ∃ s' o, Router.step c s (.accept (some fd)) = .ok (s', o) ∧
    (s'.OneSlot fd ∨ o = .closed fd) ∧
    ∀ i, (s.pollList i).fd ≠ -1 → s'.pollList i = s.pollList i

/-! ## The clients in the poll list -/

/-- The entries but the first hold these descriptors. -/
structure Router.Lists {c : RouterConfig} (s : Router c) (fds : List Int) : Prop where
  nodup : fds.Nodup
  mem : ∀ fd, fd ∈ fds ↔ fd ≠ -1 ∧ ∃ i, i ≠ 0 ∧ (s.pollList i).fd = fd

theorem Router.lists_init (c : RouterConfig) (listenFd : Int) : (init c listenFd).Lists [] where
  nodup := List.nodup_nil
  mem := by
    intro fd
    refine iff_of_false List.not_mem_nil ?_
    rintro ⟨hne, i, hi, hfd⟩
    simp only [init, hi, if_false] at hfd
    exact hne hfd.symm

theorem Router.Lists.effect {c : RouterConfig} {s s' : Router c} {act : Act} {o : Output}
    {fds : List Int} (h : s.Lists fds) (hs : s.Sound) (hallowed : Router.Allowed c s act)
    (heffect : Router.Effect c s act s' o) : s'.Lists (o.openFds fds) := by
  cases heffect with
  | nothing => exact h
  | @accepted fd entry pollStruct hentry hfree hfd =>
    obtain ⟨hpos, hfresh⟩ := hallowed
    constructor
    · refine List.nodup_cons.2 ⟨fun hmem => ?_, h.nodup⟩
      obtain ⟨-, i, -, hi⟩ := (h.mem fd).1 hmem
      exact hfresh i hi
    · intro fd'
      rw [Output.openFds, List.mem_cons, h.mem]
      dsimp only
      constructor
      · rintro (rfl | ⟨hne, i, hi, hfd'⟩)
        · exact ⟨by omega, entry, hentry, by rw [setEntry_self, hfd]⟩
        · have hie : i ≠ entry := by
            rintro rfl
            exact hne (hfd'.symm.trans hfree)
          exact ⟨hne, i, hi, by rw [setEntry_of_ne hie, hfd']⟩
      · rintro ⟨hne, i, hi, hfd'⟩
        by_cases hie : i = entry
        · rw [hie, setEntry_self, hfd] at hfd'
          exact .inl hfd'.symm
        · rw [setEntry_of_ne hie] at hfd'
          exact .inr ⟨hne, i, hi, hfd'⟩
  | @closed _ fd slot pollStruct hslot hfd hlive hdead =>
    refine ⟨h.nodup.erase fd, fun fd' => ?_⟩
    rw [Output.openFds, h.nodup.mem_erase_iff, h.mem]
    dsimp only
    constructor
    · rintro ⟨hother, hne, i, hi, hfd'⟩
      have his : i ≠ slot := by
        rintro rfl
        exact hother (hfd'.symm.trans hfd)
      exact ⟨hne, i, hi, by rw [setEntry_of_ne his, hfd']⟩
    · rintro ⟨hne, i, hi, hfd'⟩
      have his : i ≠ slot := by
        rintro rfl
        rw [setEntry_self, hdead] at hfd'
        exact hne hfd'.symm
      rw [setEntry_of_ne his] at hfd'
      refine ⟨?_, hne, i, hi, hfd'⟩
      rintro rfl
      exact his (hs.distinct i slot (hfd'.trans hfd.symm) (hfd' ▸ hne))
  | @handled fd slot pollStruct _ _ _ _ _ _ _ _ hslot hfd hlive hsame _ _ _ _ =>
    refine ⟨h.nodup, fun fd' => ?_⟩
    have hkeep := setEntry_fd (hsame.trans hfd.symm)
    simp only [Output.openFds, hkeep]
    exact h.mem fd'

/-- The poll list holds the clients whose connections are open. -/
theorem Router.Lists.run {c : RouterConfig} {listenFd : Int} {tr : List (Act × Output)}
    {s : Router c} (h : Router.Run c (init c listenFd) tr s) : s.Sound ∧ s.Lists (openFds tr) := by
  refine Machine.Run.induct (P := fun tr s => s.Sound ∧ s.Lists (openFds tr))
    ⟨sound_init c listenFd, lists_init c listenFd⟩ ?_ h
  rintro tr s act o s' - ⟨hs, hlists⟩ hallowed hstep
  rw [openFds_snoc]
  exact ⟨hs.effect hallowed (effect_of_step hstep),
    hlists.effect hs hallowed (effect_of_step hstep)⟩

theorem Router.Lists.oneSlot {c : RouterConfig} {s : Router c} {fds : List Int} (h : s.Lists fds)
    (hs : s.Sound) {fd : Int} (hfd : fd ∈ fds) : s.OneSlot fd := by
  obtain ⟨hne, i, hi, heq⟩ := (h.mem fd).1 hfd
  exact ⟨i, hi, heq, fun j hj => (hs.distinct i j (heq.trans hj.symm) (heq ▸ hne)).symm⟩

/-! ## Free entries -/

/-- The entries that clients are put into. -/
def clientEntries : List (Fin MAX_MONITOR_FDS) :=
  (List.finRange MAX_MONITOR_FDS).filter fun entry => entry ≠ 0

theorem length_clientEntries : clientEntries.length = MAX_MONITOR_FDS - 1 := by
  decide +kernel

theorem freeEntry_eq_none_iff {pollList : Fin MAX_MONITOR_FDS → PollFd} :
    freeEntry pollList = none ↔ ∀ entry ∈ clientEntries, (pollList entry).fd ≠ -1 := by
  simp [freeEntry, clientEntries]

/-- There is a free entry just if there are fewer clients than entries for them. -/
theorem Router.Lists.freeEntry_ne_none_iff {c : RouterConfig} {s : Router c} {fds : List Int}
    (h : s.Lists fds) (hs : s.Sound) :
    freeEntry s.pollList ≠ none ↔ fds.length < MAX_MONITOR_FDS - 1 := by
  let live := clientEntries.filter fun entry => (s.pollList entry).fd ≠ -1
  have hperm : fds.Perm (live.map fun entry => (s.pollList entry).fd) := by
    refine (List.perm_ext_iff_of_nodup h.nodup ?_).2 fun fd => ?_
    · refine List.Nodup.map_on ?_ (((List.nodup_finRange _).filter _).filter _)
      intro i hi j hj heq
      exact hs.distinct i j heq (by simpa using (List.mem_filter.1 hi).2)
    · rw [h.mem]
      simp only [live, clientEntries, List.mem_map, List.mem_filter, List.mem_finRange, true_and,
        decide_eq_true_eq]
      constructor
      · rintro ⟨hne, i, hi, rfl⟩
        exact ⟨i, ⟨hi, hne⟩, rfl⟩
      · rintro ⟨i, ⟨hi, hne⟩, rfl⟩
        exact ⟨hne, i, hi, rfl⟩
  rw [hperm.length_eq, List.length_map, ← length_clientEntries,
    List.length_filter_lt_length_iff_exists, Ne, freeEntry_eq_none_iff]
  simp

/-- The accept path, by whether there is a free entry. -/
theorem Router.acceptsSafely_iff {c : RouterConfig} {s : Router c} {fd : Int}
    (hallowed : Router.Allowed c s (.accept (some fd))) :
    s.AcceptsSafely fd ↔ freeEntry s.pollList ≠ none := by
  obtain ⟨-, hfresh⟩ := hallowed
  cases hentry : freeEntry s.pollList with
  | none =>
    refine iff_of_false ?_ (by simp)
    rintro ⟨s', o, hstep, -⟩
    simp [step, hentry] at hstep
  | some entry =>
    obtain ⟨hzero, hfree⟩ := freeEntry_eq_some hentry
    refine iff_of_true ⟨_, _, by simp only [step, hentry]; rfl, .inl ?_, fun i hi => ?_⟩ (by simp)
    · refine ⟨entry, hzero, by simp, fun j hj => ?_⟩
      by_contra hne
      simp only [setEntry_of_ne hne] at hj
      exact hfresh j hj
    · have hie : i ≠ entry := by
        rintro rfl
        exact hi hfree
      exact setEntry_of_ne hie ..

/-- At every moment of every run each client whose connection is open is in one entry of
    the poll list. The next connection is accepted as it should be just if fewer than 127
    connections are open: with 127 the entry behind the last one is looked at. -/
theorem accepts_safely_iff {c : RouterConfig} {listenFd : Int} {tr : List (Act × Output)}
    {s : Router c} (h : Router.Run c (Router.init c listenFd) tr s) {fd : Int}
    (hallowed : Router.Allowed c s (.accept (some fd))) :
    (∀ fd' ∈ openFds tr, s.OneSlot fd') ∧
      (s.AcceptsSafely fd ↔ (openFds tr).length < MAX_MONITOR_FDS - 1) := by
  obtain ⟨hs, hlists⟩ := Router.Lists.run h
  exact ⟨fun fd' hfd' => hlists.oneSlot hs hfd',
    (Router.acceptsSafely_iff hallowed).trans (hlists.freeEntry_ne_none_iff hs)⟩

/-- The first connection is accepted. -/
theorem accepts_safely_first : (Router.init smallRouter 3).AcceptsSafely 4 := by
  have hallowed : Router.Allowed smallRouter (Router.init smallRouter 3) (.accept (some 4)) := by
    decide +kernel
  exact (accepts_safely_iff .nil hallowed).2.2 (by decide)

/-- The router with as many clients as it has entries for, or fewer. -/
theorem exists_run_of_clients (c : RouterConfig) (n : Nat) (hn : n ≤ MAX_MONITOR_FDS - 1) :
    ∃ tr s, Router.Run c (Router.init c 3) tr s ∧ (openFds tr).length = n ∧
      ∀ i, (s.pollList i).fd < 4 + n := by
  induction n with
  | zero =>
    refine ⟨[], _, .nil, rfl, fun i => ?_⟩
    simp only [Router.init]
    split
    · show (3 : Int) < 4 + (0 : Nat)
      decide
    · show (-1 : Int) < 4 + (0 : Nat)
      decide
  | succ n ih =>
    obtain ⟨tr, s, hrun, hlength, hbound⟩ := ih (by omega)
    obtain ⟨hs, hlists⟩ := Router.Lists.run hrun
    obtain ⟨entry, hentry⟩ := Option.ne_none_iff_exists'.1
      ((hlists.freeEntry_ne_none_iff hs).2 (by omega))
    have hallowed : Router.Allowed c s (.accept (some (4 + n))) :=
      ⟨by omega, fun i => Int.ne_of_lt (hbound i)⟩
    refine ⟨_, _, hrun.snoc hallowed (by simp only [Router.step, hentry]; rfl), ?_, fun i => ?_⟩
    · simp [Output.openFds, hlength]
    · by_cases hi : i = entry
      · simp [hi]
      · have hold := hbound i
        simp only [setEntry_of_ne hi]
        omega

/-- With 127 clients connected, descriptors 4 to 130, the next connection makes the router
    look at the entry behind the last one. -/
theorem accepts_safely_fails :
    ∃ tr s, Router.Run smallRouter (Router.init smallRouter 3) tr s ∧
      Router.Allowed smallRouter s (.accept (some 131)) ∧
      Router.step smallRouter s (.accept (some 131)) = .error .outOfBounds ∧
      ¬s.AcceptsSafely 131 := by
  obtain ⟨tr, s, hrun, hlength, hbound⟩ := exists_run_of_clients smallRouter 127 (Nat.le_refl _)
  obtain ⟨hs, hlists⟩ := Router.Lists.run hrun
  have hallowed : Router.Allowed smallRouter s (.accept (some 131)) :=
    ⟨by decide, fun i => Int.ne_of_lt (hbound i)⟩
  have hfull : freeEntry s.pollList = none := by
    by_contra hfree
    have hlt := (hlists.freeEntry_ne_none_iff hs).1 hfree
    rw [hlength] at hlt
    exact absurd hlt (by decide)
  have hstep : Router.step smallRouter s (.accept (some 131)) = .error .outOfBounds := by
    simp only [Router.step, hfull]
  refine ⟨tr, s, hrun, hallowed, hstep, ?_⟩
  rintro ⟨s', o, hok, -⟩
  rw [hstep] at hok
  cases hok

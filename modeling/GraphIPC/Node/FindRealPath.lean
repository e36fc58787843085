-- SUMMARY: common.c: the search for a binary along PATH, and what it leaves when there is none.
import GraphIPC.Lib.RingBuffer

/-!
# The search along PATH

`findRealPath` copies the value of `PATH` and cuts the copy at its colons, one component
at a time, to try the binary in each. It is documented to fill its target with the name of
the binary if no component has it; it leaves an empty string, which `main` takes for an
error.
-/

/-- A string without its terminator. -/
structure CString where
  bytes : List UInt8
  nul_free : 0 ∉ bytes

/-- The characters of a colon and a slash. -/
def COLON : UInt8 := 0x3A
def SLASH : UInt8 := 0x2F

/-- The loop of `strchr`, over what lies behind a pointer. -/
def strchrFrom (c : UInt8) : Nat → List UInt8 → Except Fault (Option Nat)
  | _, [] => .error .outOfBounds
  | pos, byte :: rest =>
    if byte = c then .ok (some pos)
    else if byte = 0 then .ok none
    else strchrFrom c (pos + 1) rest

/-- `strchr`, which returns an offset into the block. -/
def strchr (block : List UInt8) (s : Nat) (c : UInt8) : Except Fault (Option Nat) :=
  strchrFrom c s (block.drop s)

/-- The loop of `strlen`, with what it passes. -/
def stringFrom : List UInt8 → Except Fault (List UInt8)
  | [] => .error .outOfBounds
  | byte :: rest => if byte = 0 then .ok [] else (stringFrom rest).map (byte :: ·)

/-- The string at an offset into a block. -/
def stringAt (block : List UInt8) (s : Nat) : Except Fault (List UInt8) :=
  stringFrom (block.drop s)

/-- The loop of `findRealPath`; `access` tells which files exist. -/
def tryComponents (access : List UInt8 → Bool) (binary : CString) :
    Nat → List UInt8 → Nat → List UInt8 → Except Fault (List UInt8)
  | 0, _, _, _ => .error .unfinished
  | rounds + 1, dup, s, target => do
    let p ← strchr dup s COLON
    let dup := match p with
      | some p => dup.set p 0
      | none => dup
    let str ← stringAt dup s
    let tryPath := List.replicate (str.length + binary.bytes.length + 2) 0
    let tryPath ← copyIn tryPath 0 (str ++ [SLASH] ++ binary.bytes ++ [0])
    let tried ← stringAt tryPath 0
    if access tried then copyIn target 0 tried
    else
      match p with
      | some p => tryComponents access binary rounds dup (p + 1) target
      | none => copyIn target 0 [0]

/-- `findRealPath`, with the value of `PATH`, if its loop ends within some rounds. -/
def findRealPath (access : List UInt8 → Bool) (rounds : Nat) (path binary : CString)
    (target : List UInt8) : Except Fault (List UInt8) :=
  tryComponents access binary rounds (path.bytes ++ [0]) 0 target

/-! ## What the search is for -/

/-- The components of the value of `PATH`. -/
def components (path : CString) : List (List UInt8) := path.bytes.splitOn COLON

/-- A binary in a component. -/
def CString.inComponent (binary : CString) (component : List UInt8) : List UInt8 :=
  component ++ [SLASH] ++ binary.bytes

/-- The first file there is among the binaries in some components. -/
def firstFound (access : List UInt8 → Bool) (binary : CString) (components : List (List UInt8)) :
    Option (List UInt8) :=
  (components.map binary.inComponent).find? access

/-- What the documentation says the target is filled with. -/
def realPath (access : List UInt8 → Bool) (path binary : CString) : List UInt8 :=
  (firstFound access binary (components path)).getD binary.bytes

/-! ## Strings in blocks -/

theorem strchrFrom_eq_some {c : UInt8} {xs : List UInt8} (hc : c ∉ xs) (h : 0 ∉ xs) (pos : Nat)
    (ys : List UInt8) : strchrFrom c pos (xs ++ c :: ys) = .ok (some (pos + xs.length)) := by
  induction xs generalizing pos with
  | nil => simp [strchrFrom]
  | cons x xs ih =>
    rw [List.mem_cons, not_or] at hc h
    rw [List.cons_append, strchrFrom, if_neg (Ne.symm hc.1), if_neg (Ne.symm h.1), ih hc.2 h.2,
      List.length_cons, Nat.add_assoc, Nat.add_comm 1]

theorem strchrFrom_eq_none {c : UInt8} {xs : List UInt8} (hc : c ∉ xs) (h : 0 ∉ xs) (hne : c ≠ 0)
    (pos : Nat) (ys : List UInt8) : strchrFrom c pos (xs ++ 0 :: ys) = .ok none := by
  induction xs generalizing pos with
  | nil => simp [strchrFrom, Ne.symm hne]
  | cons x xs ih =>
    rw [List.mem_cons, not_or] at hc h
    rw [List.cons_append, strchrFrom, if_neg (Ne.symm hc.1), if_neg (Ne.symm h.1), ih hc.2 h.2]

theorem stringFrom_eq {xs : List UInt8} (h : 0 ∉ xs) (ys : List UInt8) :
    stringFrom (xs ++ 0 :: ys) = .ok xs := by
  induction xs with
  | nil => simp [stringFrom]
  | cons x xs ih =>
    rw [List.mem_cons, not_or] at h
    rw [List.cons_append, stringFrom, if_neg (Ne.symm h.1), ih h.2]
    rfl

theorem stringAt_eq {front xs : List UInt8} (h : 0 ∉ xs) (ys : List UInt8) :
    stringAt (front ++ (xs ++ 0 :: ys)) front.length = .ok xs := by
  rw [stringAt, List.drop_left, stringFrom_eq h]

/-- A string copied over zeros ends where it ends. -/
theorem stringAt_copyIn {xs : List UInt8} (h : 0 ∉ xs) {size : Nat} (hsize : xs.length < size) :
    ∃ block, copyIn (List.replicate size 0) 0 xs = .ok block ∧ stringAt block 0 = .ok xs := by
  have hfits : 0 + xs.length ≤ (List.replicate size (0 : UInt8)).length := by
    rw [List.length_replicate]
    omega
  refine ⟨_, by rw [copyIn, if_pos hfits], ?_⟩
  obtain ⟨n, hn⟩ := Nat.exists_eq_add_of_lt hsize
  have hzeros : (List.replicate size (0 : UInt8)).drop (0 + xs.length) =
      0 :: List.replicate n 0 := by
    rw [List.drop_replicate, ← List.replicate_succ]
    congr 1
    omega
  rw [Memory.store, hzeros, List.take_zero, List.nil_append]
  exact stringFrom_eq h _

theorem CString.nul_free_inComponent (binary : CString) {component : List UInt8}
    (h : 0 ∉ component) : 0 ∉ binary.inComponent component := by
  have hslash : (0 : UInt8) ≠ SLASH := by decide
  simp [inComponent, h, binary.nul_free, hslash]

/-! ## The loop -/

section Loop

variable (access : List UInt8 → Bool) (binary : CString)

/-- The name that is tried is the binary in the component. -/
theorem tryPath_eq {str : List UInt8} (h : 0 ∉ str) :
    ∃ tryPath, copyIn (List.replicate (str.length + binary.bytes.length + 2) 0) 0
        (str ++ [SLASH] ++ binary.bytes ++ [0]) = .ok tryPath ∧
      stringAt tryPath 0 = .ok (binary.inComponent str) := by
  have hlength : (str ++ [SLASH] ++ binary.bytes ++ [0]).length =
      (List.replicate (str.length + binary.bytes.length + 2) (0 : UInt8)).length := by
    simp only [List.length_append, List.length_replicate, List.length_singleton]
    omega
  have hfree := binary.nul_free_inComponent h
  refine ⟨_, by rw [copyIn, if_pos (by omega), Memory.store_all hlength], ?_⟩
  exact stringFrom_eq hfree []

/-- One round, on a component that is not the last. -/
theorem tryComponents_cut {front component more : List UInt8} (hcolon : COLON ∉ component)
    (hfree : 0 ∉ component) (rounds : Nat) (target : List UInt8) :
    tryComponents access binary (rounds + 1)
        (front ++ (component ++ COLON :: more)) front.length target =
      if access (binary.inComponent component) then copyIn target 0 (binary.inComponent component)
      else tryComponents access binary rounds (front ++ component ++ [0] ++ more)
        (front ++ component ++ [0]).length target := by
  obtain ⟨tryPath, hcopy, htried⟩ := tryPath_eq binary hfree
  have hcut : (front ++ (component ++ COLON :: more)).set (front.length + component.length) 0 =
      front ++ (component ++ 0 :: more) := by
    rw [List.set_append_right _ _ (by omega), Nat.add_sub_cancel_left,
      List.set_append_right _ _ (Nat.le_refl _), Nat.sub_self]
    rfl
  have hjoin : front ++ (component ++ 0 :: more) = front ++ component ++ [0] ++ more := by simp
  rw [tryComponents, strchr, List.drop_left, strchrFrom_eq_some hcolon hfree, Except.ok_bind]
  dsimp only
  rw [hcut, stringAt_eq hfree, Except.ok_bind, hcopy, Except.ok_bind, htried, Except.ok_bind,
    hjoin]
  simp only [List.length_append, List.length_singleton]

/-- The last round. -/
theorem tryComponents_last {front component : List UInt8} (hcolon : COLON ∉ component)
    (hfree : 0 ∉ component) (rounds : Nat) (target : List UInt8) :
    tryComponents access binary (rounds + 1) (front ++ (component ++ [0])) front.length target =
      if access (binary.inComponent component) then copyIn target 0 (binary.inComponent component)
      else copyIn target 0 [0] := by
  obtain ⟨tryPath, hcopy, htried⟩ := tryPath_eq binary hfree
  have hne : COLON ≠ 0 := by decide
  rw [tryComponents, strchr, List.drop_left, strchrFrom_eq_none hcolon hfree hne, Except.ok_bind]
  dsimp only
  rw [stringAt_eq hfree, Except.ok_bind, hcopy, Except.ok_bind, htried, Except.ok_bind]

/-- The loop ends within as many rounds as there are components, and copies the first file
    that it found, or the end of a string. -/
theorem tryComponents_eq {rest : List UInt8} (hfree : 0 ∉ rest) (front target : List UInt8)
    {rounds : Nat} (hrounds : (rest.splitOn COLON).length ≤ rounds) :
    tryComponents access binary rounds (front ++ (rest ++ [0])) front.length target =
      copyIn target 0 ((firstFound access binary (rest.splitOn COLON)).getD [0]) := by
  induction rounds generalizing front rest with
  | zero =>
    exact absurd (List.length_eq_zero_iff.1 (Nat.le_zero.1 hrounds)) (List.splitOn_ne_nil _ _)
  | succ rounds ih =>
    by_cases hcolon : COLON ∈ rest
    · obtain ⟨component, more, rfl, hnot⟩ := List.eq_append_cons_of_mem hcolon
      have hcomponent : 0 ∉ component := fun hmem => hfree (List.mem_append_left _ hmem)
      have hmore : 0 ∉ more := fun hmem =>
        hfree (List.mem_append_right _ (List.mem_cons_of_mem _ hmem))
      have hsplit : (component ++ COLON :: more).splitOn COLON =
          component :: more.splitOn COLON := List.splitOn_append_cons_self_of_not_mem hnot _
      rw [hsplit] at hrounds ⊢
      have hnext := ih hmore (front ++ component ++ [0]) (Nat.le_of_succ_le_succ hrounds)
      have hjoin : component ++ COLON :: more ++ [0] = component ++ COLON :: (more ++ [0]) := by simp
      rw [hjoin, tryComponents_cut access binary hnot hcomponent, hnext, firstFound, firstFound,
        List.map_cons, List.find?_cons]
      cases access (binary.inComponent component) <;> rfl
    · rw [tryComponents_last access binary hcolon hfree, List.splitOn_eq_singleton hcolon,
        firstFound, List.map_singleton, List.find?_singleton]
      cases access (binary.inComponent rest) <;> rfl

end Loop

/-! ## The result -/

theorem mem_intercalate {α : Type} {sep xs : List α} {xss : List (List α)} {x : α} (hx : x ∈ xs)
    (hxs : xs ∈ xss) : x ∈ sep.intercalate xss := by
  induction xss with
  | nil => cases hxs
  | cons ys xss ih =>
    cases xss with
    | nil =>
      obtain rfl := List.mem_singleton.1 hxs
      rwa [List.intercalate_singleton]
    | cons zs xss =>
      rw [List.intercalate_cons_cons]
      rcases List.mem_cons.1 hxs with rfl | hxs
      · exact List.mem_append_left _ (List.mem_append_left _ hx)
      · exact List.mem_append_right _ (ih hxs)

/-- A component is a string. -/
theorem nul_free_of_mem_components {path : CString} {component : List UInt8}
    (h : component ∈ components path) : 0 ∉ component := by
  intro hzero
  have hjoin : [COLON].intercalate (components path) = path.bytes := List.intercalate_splitOn _
  exact path.nul_free (hjoin ▸ mem_intercalate hzero h)

/-- Whatever `PATH` and the binary are, the loop ends with the last component at the
    latest and stays within the copy. The target is filled as documented just if some
    component has the binary, or its name is empty. -/
theorem find_real_path_iff (access : List UInt8 → Bool) (path binary : CString) {size : Nat}
    (hsize : (realPath access path binary).length < size) :
    ∃ target, (∀ rounds, (components path).length ≤ rounds →
        findRealPath access rounds path binary (List.replicate size 0) = .ok target) ∧
      (stringAt target 0 = .ok (realPath access path binary) ↔
        (∃ component ∈ components path, access (binary.inComponent component) = true) ∨
          binary.bytes = []) := by
  have hloop : ∀ rounds, (components path).length ≤ rounds →
      findRealPath access rounds path binary (List.replicate size 0) =
        copyIn (List.replicate size 0) 0 ((firstFound access binary (components path)).getD [0]) :=
    fun rounds hrounds => tryComponents_eq access binary path.nul_free [] _ hrounds
  cases hfound : firstFound access binary (components path) with
  | some found =>
    rw [realPath, hfound, Option.getD_some] at hsize ⊢
    rw [hfound, Option.getD_some] at hloop
    obtain ⟨component, hmem, rfl⟩ := List.mem_map.1 (List.mem_of_find?_eq_some hfound)
    have hfree := binary.nul_free_inComponent (nul_free_of_mem_components hmem)
    obtain ⟨target, hcopy, hstring⟩ := stringAt_copyIn hfree hsize
    have hexists : access (binary.inComponent component) = true := List.find?_some hfound
    exact ⟨target, fun rounds hrounds => (hloop rounds hrounds).trans hcopy,
      iff_of_true hstring (.inl ⟨component, hmem, hexists⟩)⟩
  | none =>
    rw [realPath, hfound, Option.getD_none] at hsize ⊢
    rw [hfound, Option.getD_none] at hloop
    have hnone : ¬∃ component ∈ components path, access (binary.inComponent component) = true := by
      rintro ⟨component, hmem, hexists⟩
      exact absurd hexists (List.find?_eq_none.1 hfound _ (List.mem_map_of_mem hmem))
    obtain ⟨size, rfl⟩ := Nat.exists_eq_succ_of_ne_zero (Nat.ne_of_gt (Nat.zero_lt_of_lt hsize))
    have hcopy : copyIn (List.replicate (size + 1) 0) 0 [0] =
        .ok (0 :: List.replicate size (0 : UInt8)) := by
      rw [copyIn, if_pos (by simp)]
      rfl
    refine ⟨_, fun rounds hrounds => (hloop rounds hrounds).trans hcopy, ?_⟩
    have hempty : stringAt (0 :: List.replicate size 0) 0 = .ok [] := rfl
    rw [hempty]
    constructor
    · exact fun heq => .inr (Except.ok.inj heq).symm
    · rintro (hsome | hnil)
      · exact absurd hsome hnone
      · rw [hnil]

/-- The second component of `"x:y"` has the file `"y/b"`. -/
theorem find_real_path_second :
    ∃ target, findRealPath (fun name => name = [0x79, SLASH, 0x62]) 2
        ⟨[0x78, COLON, 0x79], by decide⟩ ⟨[0x62], by decide⟩ (List.replicate 4 0) = .ok target ∧
      stringAt target 0 = .ok [0x79, SLASH, 0x62] := by
  have hsize : (realPath (fun name => name = [0x79, SLASH, 0x62])
      ⟨[0x78, COLON, 0x79], by decide⟩ ⟨[0x62], by decide⟩).length < 4 := by decide
  obtain ⟨target, hfind, hiff⟩ := find_real_path_iff _ _ _ hsize
  exact ⟨target, hfind 2 (by decide), hiff.2 (.inl ⟨[0x79], by decide, by decide⟩)⟩

/-- Where there are no files at all the name of the binary is not left. -/
theorem find_real_path_fails :
    findRealPath (fun _ => false) 2 ⟨[0x78, COLON, 0x79], by decide⟩ ⟨[0x62], by decide⟩
        (List.replicate 4 0) = .ok [0, 0, 0, 0] ∧
      realPath (fun _ => false) ⟨[0x78, COLON, 0x79], by decide⟩ ⟨[0x62], by decide⟩ = [0x62] ∧
      stringAt [0, 0, 0, 0] 0 ≠ .ok [0x62] := by
  refine ⟨rfl, rfl, fun h => ?_⟩
  cases h

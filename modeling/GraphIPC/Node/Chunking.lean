-- SUMMARY: On any stream whose frames fit the buffer, the way it is cut into reads changes neither the calls nor what is left.
import GraphIPC.Node.Remote

/-!
# Arbitrary streams

The stream from the router may hold anything: frames, pieces of frames, headers of
another version and plain garbage. As long as no header on it declares more than
the buffer holds, every read finds room, and draining the buffer after each of
them is draining the whole stream at once.
-/

/-- No header that is examined while a stream is drained declares a frame longer
    than `size`. -/
def Modest (order : ByteOrder) (size : Nat) (stream : List UInt8) : Prop :=
  ∀ ys, (frameReader order).Visits stream ys → 11 ≤ ys.length → StartsFrame ys →
    11 + declaredLength order ys ≤ size

section Modest

variable {order : ByteOrder} {size : Nat} {stream : List UInt8} (h : Modest order size stream)
include h

/-- What is examined of the beginning of a stream is examined of all of it. -/
theorem Modest.of_prefix {p : List UInt8} (hp : p <+: stream) : Modest order size p := by
  obtain ⟨q, rfl⟩ := hp
  intro ys hvisits hlen hstart
  rw [← declaredLength_append hlen q]
  refine h (ys ++ q) (hvisits.append _ q) ?_ (hstart.append q)
  rw [List.length_append]
  omega

/-- The frames that are taken have a whole header. -/
theorem Modest.eleven_le (hsize : size < 2 ^ 32) :
    ∀ f ∈ ((frameReader order).drain stream).1, 11 ≤ f.length := by
  intro f hf
  obtain ⟨ys, n, hvisits, htake, rfl⟩ := ((frameReader order).drain_visits stream).1 f hf
  have hpos : 0 < gnwNextPacket order ys := by
    by_contra hpos
    simp only [frameReader] at htake
    split at htake
    · cases htake
    · rw [if_pos (by omega)] at htake
      cases htake
  have hn : n = (gnwNextPacket order ys).toNat := by
    simp only [frameReader] at htake
    rw [if_neg (by omega), if_neg (by omega)] at htake
    exact (Verdict.take.inj htake).symm
  obtain ⟨hlen, hstart, heq, hle⟩ := gnwNextPacket_pos hpos
  have hmodest := h ys hvisits hlen hstart
  rw [Nat.mod_eq_of_lt (by omega)] at heq hle
  rw [List.length_take]
  omega

/-- What is left when the stream is drained is shorter than the buffer. -/
theorem Modest.rest_lt (hsize : size < 2 ^ 32) (heleven : 11 ≤ size) :
    ((frameReader order).drain stream).2.length < size := by
  have hvisits := ((frameReader order).drain_visits stream).2
  have hwait := (frameReader order).next_drain_rest stream
  generalize ((frameReader order).drain stream).2 = rest at hvisits hwait
  by_contra hlong
  have hzero : gnwNextPacket order rest = 0 := by
    simp only [frameReader] at hwait
    split at hwait
    · cases hwait
    · split at hwait
      · assumption
      · cases hwait
  have hstart : StartsFrame rest := by
    by_contra hstart
    have hneg : gnwNextPacket order rest < 0 := gnwNextPacket_of_not_startsFrame (by omega) hstart
    omega
  have hmodest := h rest hvisits (by omega) hstart
  rw [gnwNextPacket_of_startsFrame order (by omega) hstart, Nat.mod_eq_of_lt (by omega),
    if_pos (by omega)] at hzero
  omega

end Modest

/-! ## Two ways to cut a stream -/

/-- Two runs of `handleRemoteData` over the same bytes, however they are cut into
    reads, make the same calls and leave the same bytes in the buffer: those of
    draining all of it in one go. No read fails, and there is room for the next. -/
theorem remote_confluent {c : NodeConfig} {routerFd fd : Int}
    {inputBuffer₀ inputBuffer₀' inputBuffer inputBuffer' : InputBuffer c}
    (hnew : inputBuffer₀ fd = none) (hnew' : inputBuffer₀' fd = none)
    {tr tr' : List (List UInt8 × (List Call × Received))}
    (hrun : RemoteRun c routerFd fd inputBuffer₀ tr inputBuffer)
    (hrun' : RemoteRun c routerFd fd inputBuffer₀' tr' inputBuffer')
    (hsame : readBytes tr' = readBytes tr)
    (hmodest : Modest c.order c.bufferSize (readBytes tr)) :
    callsMade tr' = callsMade tr ∧
      ∃ b b', inputBuffer.bufferFor fd = some b ∧ inputBuffer'.bufferFor fd = some b' ∧
        b'.window = b.window ∧ (∀ e ∈ tr, e.2.2 = .arrived) ∧ 0 < b.capacity ∧
        ∀ data, RemoteAllowed c fd inputBuffer data →
          Modest c.order c.bufferSize (readBytes tr ++ data) →
          ∃ inputBuffer₁ calls, remoteStep c routerFd fd inputBuffer data =
            .ok (inputBuffer₁, (calls, .arrived)) := by
  have hlt : c.bufferSize < 2 ^ 32 := by
    have hsize := c.networkMtu_lt
    rw [NodeConfig.bufferSize]
    omega
  have heleven : 11 ≤ c.bufferSize := by
    have hpos := c.networkMtu_pos
    rw [NodeConfig.bufferSize]
    omega
  have hframes : ∀ p, p <+: readBytes tr → ∀ f ∈ ((frameReader c.order).drain p).1, 11 ≤ f.length :=
    fun p hp => (hmodest.of_prefix hp).eleven_le hlt
  obtain ⟨b, hd⟩ := Drained.run hnew hframes hrun List.prefix_rfl
  obtain ⟨b', hd'⟩ := Drained.run hnew' hframes hrun' (hsame ▸ List.prefix_rfl)
  have hrest := hmodest.rest_lt hlt heleven
  refine ⟨?_, b, b', hd.buffer, hd'.buffer, ?_, hd.arrived, ?_, fun data hallowed hmodest' => ?_⟩
  · rw [hd'.calls, hd.calls, hsame]
  · rw [hd'.window, hd.window, hsame]
  · rw [← hd.window, b.length_window] at hrest
    rw [LocalBuffer.capacity]
    omega
  · obtain ⟨inputBuffer₁, calls, -, hstep, -⟩ := hd.step hallowed (hmodest'.eleven_le hlt)
    exact ⟨inputBuffer₁, calls, hstep⟩

/-- What is examined from one position on. -/
theorem Modest.of_next {order : ByteOrder} {size : Nat} {xs rest : List UInt8}
    (hhere : 11 ≤ xs.length → StartsFrame xs → 11 + declaredLength order xs ≤ size)
    (hnext : (frameReader order).next xs = .wait ∨
      (frameReader order).next xs = .skip ∧ rest = xs.drop 1 ∨
      ∃ n, (frameReader order).next xs = .take n ∧ rest = xs.drop n)
    (hrest : Modest order size rest) : Modest order size xs := by
  intro ys hvisits
  cases hvisits with
  | here => exact hhere
  | skip hskip hvisits =>
    rcases hnext with hwait | ⟨-, rfl⟩ | ⟨n, htake, -⟩
    · rw [hwait] at hskip
      cases hskip
    · exact hrest ys hvisits
    · rw [htake] at hskip
      cases hskip
  | @take _ _ m htake hvisits =>
    rcases hnext with hwait | ⟨hskip, -⟩ | ⟨n, htake', rfl⟩
    · rw [hwait] at htake
      cases htake
    · rw [hskip] at htake
      cases htake
    · obtain rfl := Verdict.take.inj (htake'.symm.trans htake)
      exact hrest ys hvisits

/-- A stray byte, a frame and the beginning of another, in one read and in three. -/
theorem remote_confluent_pieces :
    ∃ tr tr' inputBuffer inputBuffer', RemoteRun smallNode 3 3 Table.empty tr inputBuffer ∧
      RemoteRun smallNode 3 3 Table.empty tr' inputBuffer' ∧ tr.length = 1 ∧ tr'.length = 3 ∧
      callsMade tr' = callsMade tr := by
  let frame := frameBytes .little GNW_DATA 9 [0x41]
  let stream := 0x00 :: (frame ++ frame.take 5)
  let reads := [stream.take 4, (stream.drop 4).take 9, stream.drop 13]
  have hsim : (Machine.simulate (RemoteAllowed smallNode 3) (remoteStep smallNode 3 3) Table.empty
      [stream]).any (fun r => r.2.length = 1 && readBytes r.2 = stream) = true := by
    decide +kernel
  have hsim' : (Machine.simulate (RemoteAllowed smallNode 3) (remoteStep smallNode 3 3) Table.empty
      reads).any (fun r => r.2.length = 3 && readBytes r.2 = stream) = true := by
    decide +kernel
  obtain ⟨tr, inputBuffer, hrun, hlast⟩ := Machine.Run.exists_of_simulate hsim
  obtain ⟨tr', inputBuffer', hrun', hlast'⟩ := Machine.Run.exists_of_simulate hsim'
  simp only [Bool.and_eq_true, decide_eq_true_eq] at hlast hlast'
  obtain ⟨hlength, hread⟩ := hlast
  obtain ⟨hlength', hread'⟩ := hlast'
  have hnil : Modest .little 20 [] := by
    intro ys hvisits hlen
    cases hvisits with
    | here => exact absurd hlen (by decide)
    | skip hskip => exact absurd hskip (by decide)
    | take htake => cases htake
  have hrest : Modest .little 20 (frame.take 5) :=
    .of_next (fun hlen => absurd hlen (by decide)) (.inl (by decide)) hnil
  have hframe : Modest .little 20 (frame ++ frame.take 5) :=
    .of_next (fun _ _ => by decide) (.inr (.inr ⟨12, by decide, by decide⟩)) hrest
  have hstream : Modest .little 20 stream :=
    .of_next (fun _ hstart => absurd hstart (by decide)) (.inr (.inl ⟨by decide, rfl⟩)) hframe
  have hcalls := (remote_confluent rfl rfl hrun hrun' (hread'.trans hread.symm)
    (hread ▸ hstream)).1
  exact ⟨tr, tr', inputBuffer, inputBuffer', hrun, hrun', hlength, hlength', hcalls⟩

-- SUMMARY: The packet handler over khash.h does to the table what it does to the finite map that the table holds.
import GraphIPC.Base.Agree
import GraphIPC.Klib.Run
import GraphIPC.Router.Unknown

/-!
# The address table of khash.h

The handler is written over the khash operations. Over the table as it is written it ends
in the same error as over the finite map that the table holds, or it makes the same writes
and leaves a table that holds the same map. The one thing that it may not do is to test
the end of a table that has no flags there.
-/

namespace Khash

variable {checked : Bool} {stops : Prop}

/-- The tables hold the same, and the writes are the same. -/
def SameWrites (r : Khash checked Context × List Write) (r' : AddressTable × List Write) : Prop :=
  r.1.Models r'.1 ∧ r.2 = r'.2

namespace Models

variable {t : Khash checked Context} {m : AddressTable} (hm : t.Models m)
include hm

/-! ## Lookups -/

theorem unknown_iff {address : UInt32} : Unknown t address ↔ m address = none := by
  constructor
  · intro hunknown
    cases hkey : m address with
    | none => rfl
    | some entry =>
      obtain ⟨i, hi, hget⟩ := hm.get_of_some hkey
      have hget' : t.get address = .ok t.nBuckets := hunknown
      rw [hget'] at hget
      cases hget
      exact absurd (hm.lt_of_slot hi) (Nat.lt_irrefl _)
  · intro hkey
    exact hm.get_of_none hkey

/-- A lookup of a known address, and what can be read and written there. -/
theorem lookup {address : UInt32} {entry : Context} (hkey : m address = some entry) :
    ∃ i, khGet t address = .ok i ∧ i ≠ khEnd t ∧ khExist t i = .ok true ∧
      khValue t i = .ok entry ∧ ∀ entry', ∃ t', khSetValue t i entry' = .ok t' ∧
        t'.Models (m.set address entry') := by
  obtain ⟨i, hi, hget⟩ := hm.get_of_some hkey
  obtain ⟨hexist, hvalue⟩ := hm.khValue_of_slot hi
  refine ⟨i, hget, (hm.lt_of_slot hi).ne, hexist, hvalue, fun entry' => ?_⟩
  obtain ⟨t', hset, hm', -, -⟩ := hm.setValue hi entry'
  exact ⟨t', hset, hm'⟩

/-! ## Commands -/

/-- An address is looked up or added; either way it is there afterwards. -/
theorem findOrSetup_eq (hsize : t.size < 2 ^ 30) (address : UInt32) :
    ∃ t' i m' entry, findOrSetup address t = .ok (t', i) ∧
      findOrSetup address m = .ok (m', some address) ∧ m' address = some entry ∧ i ≠ khEnd t' ∧
      khValue t' i = .ok entry ∧ ∀ entry', ∃ t'', khSetValue t' i entry' = .ok t'' ∧
        t''.Models (m'.set address entry') := by
  cases hkey : m address with
  | some entry =>
    obtain ⟨i, hget, hend, hexist, hvalue, hset⟩ := hm.lookup hkey
    refine ⟨t, i, m, entry, ?_, ?_, hkey, hend, hvalue, hset⟩
    · simp [findOrSetup, isMissing, hget, hend, hexist]
    · have hend' : some address ≠ khEnd m := by simp [khEnd]
      simp [findOrSetup, isMissing, Table.khGet_of_some hkey, Table.khExist_of_some hkey, hend']
  | none =>
    obtain ⟨t₁, i, v, hput, hi, hm₁, -⟩ := hm.put hsize address
    obtain ⟨t₂, hset, hm₂, hi₂, -⟩ := hm₁.setValue hi setupContext
    obtain ⟨-, hvalue⟩ := hm₂.khValue_of_slot hi₂
    have hget : khGet t address = .ok (khEnd t) := hm.get_of_none hkey
    have hput : khPut t address = .ok (t₁, i) := hput
    refine ⟨t₂, i, m.set address setupContext, setupContext, ?_, ?_, Table.set_self ..,
      (hm₂.lt_of_slot hi₂).ne, hvalue, fun entry' => ?_⟩
    · simp [findOrSetup, isMissing, hget, hput, hset]
    · have hset' : khSetValue (m.set address default) (some address) setupContext =
          .ok (m.set address setupContext) := by
        rw [Table.khSetValue_of_some (Table.set_self ..), Table.set_set]
      have hget' : khGet m address = .ok (khEnd m) := Table.khGet_of_none hkey
      simp [findOrSetup, isMissing, hget', Table.khPut_of_none hkey, hset']
    · obtain ⟨t₃, hset₃, hm₃, -, -⟩ := hm₂.setValue hi₂ entry'
      simp only [Table.set_set] at hm₃ ⊢
      exact ⟨t₃, hset₃, hm₃⟩

theorem cmdNewAddress_agree (hsize : t.size < 2 ^ 30) (order : ByteOrder) (fd : Int)
    (address : UInt32) :
    Except.Agree stops SameWrites (cmdNewAddress order fd address t) (cmdNewAddress order fd address m) := by
  obtain ⟨t', i, m', entry, hfind, hfind', hkey, -, hvalue, hset⟩ := hm.findOrSetup_eq hsize address
  obtain ⟨t'', hset, hm''⟩ := hset { entry with boundFd := fd }
  simp only [cmdNewAddress, hfind, hfind', hvalue, hset, Table.khValue_of_some hkey,
    Table.khSetValue_of_some hkey, Except.ok_bind]
  exact .bind_same fun reply _ => .ok ⟨hm'', rfl⟩

theorem cmdConnect_agree (hsize : t.size < 2 ^ 30) (source target : UInt32) :
    Except.Agree stops SameWrites (cmdConnect source target t) (cmdConnect source target m) := by
  obtain ⟨t', i, m', entry, hfind, hfind', hkey, hend, hvalue, hset⟩ := hm.findOrSetup_eq hsize source
  obtain ⟨t'', hset, hm''⟩ := hset { entry with forward := entry.forward ++ [target] }
  have hend' : some source ≠ khEnd m' := by simp [khEnd]
  simp only [cmdConnect, hfind, hfind', hvalue, hset, ne_eq, hend, hend', not_false_eq_true,
    decide_true, assertThat_true, Table.khValue_of_some hkey, Table.khSetValue_of_some hkey,
    Except.ok_bind]
  exact .ok ⟨hm'', rfl⟩

theorem cmdPolicy_agree (policy : UInt8) (target : UInt32) :
    Except.Agree stops SameWrites (cmdPolicy policy target t) (cmdPolicy policy target m) := by
  cases hkey : m target with
  | none =>
    have hget : khGet t target = .ok (khEnd t) := hm.get_of_none hkey
    have hget' : khGet m target = .ok (khEnd m) := Table.khGet_of_none hkey
    simp only [cmdPolicy, hget, hget', Except.ok_bind, if_true]
    exact .ok ⟨hm, rfl⟩
  | some entry =>
    obtain ⟨i, hget, hend, -, hvalue, hset⟩ := hm.lookup hkey
    obtain ⟨t', hset, hm'⟩ := hset { entry with forwardPolicy := policy.toNat }
    have hend' : some target ≠ khEnd m := by simp [khEnd]
    simp only [cmdPolicy, hget, hend, hvalue, hset, Table.khGet_of_some hkey, hend',
      Table.khValue_of_some hkey, Table.khSetValue_of_some hkey, Except.ok_bind, if_false]
    exact .bind_same fun _ _ => .ok ⟨hm', rfl⟩

/-! ## Data -/

/-- The test of the end of a table does not find anything there. -/
theorem khExist_end_ne : khExist t (khEnd t) ≠ .ok true := by
  cases checked with
  | true =>
    rw [khExist_end_check]
    exact fun h => by cases h
  | false =>
    by_cases hn : t.nBuckets = 4 ∨ t.nBuckets = 8
    · rw [hm.wellFormed.khExist_end_small hn]
      exact fun h => by cases h
    · rw [hm.wellFormed.khExist_end_large hn]
      exact fun h => by cases h

/-- What is done about an unknown address, after the end of the table was tested. -/
theorem skip_agree {result : Except Fault Bool}
    (hlook : stops ∨ result = .ok false) :
    Except.Agree stops SameWrites (result >>= fun _ => .ok (t, [])) (.ok (m, [])) := by
  cases result with
  | ok present => exact .ok ⟨hm, rfl⟩
  | error e =>
    rcases hlook with hstops | hfalse
    · exact .stop e _ hstops
    · cases hfalse

/-- A target is known, or the end of the table can be tested. -/
theorem forwardTo_agree {target : UInt32}
    (hlook : m target = none → stops ∨ khExist t (khEnd t) = .ok false) (buffer : List UInt8) :
    Except.Agree stops SameWrites (forwardTo buffer target t) (forwardTo buffer target m) := by
  cases hkey : m target with
  | none =>
    have hget' : khGet m target = .ok (khEnd m) := Table.khGet_of_none hkey
    rw [forwardTo_of_end (hm.unknown_iff.2 hkey), forwardTo_of_end hget']
    exact hm.skip_agree (hlook hkey)
  | some entry =>
    obtain ⟨i, hget, hend, hexist, hvalue, hset⟩ := hm.lookup hkey
    obtain ⟨t', hset, hm'⟩ := hset
      { entry with
        bytesOut := entry.bytesOut + UInt64.ofNat buffer.length
        packetsOut := entry.packetsOut + 1 }
    have hend' : some target ≠ khEnd m := by simp [khEnd]
    simp only [forwardTo, hget, hexist, hend, hvalue, hset, Table.khGet_of_some hkey,
      Table.khExist_of_some hkey, hend', Table.khValue_of_some hkey, Table.khSetValue_of_some hkey,
      Except.ok_bind]
    exact .ok ⟨hm', rfl⟩

end Models

/-- Assigning a value does not change which addresses are known, nor the flags. -/
theorem forwardTo_keeps {t t' : Khash checked Context} {buffer : List UInt8} {target : UInt32}
    {copy : List Write} (h : forwardTo buffer target t = .ok (t', copy)) :
    khExist t' (khEnd t') = khExist t (khEnd t) := by
  simp only [forwardTo, Except.bind_eq_ok_iff] at h
  obtain ⟨fwd, -, present, -, h⟩ := h
  split at h
  · cases h
    rfl
  split at h
  · cases h
    rfl
  simp only [Except.bind_eq_ok_iff] at h
  obtain ⟨entry, -, t₁, hset, h⟩ := h
  cases h
  exact khExist_end_khSetValue hset

theorem Models.forwardAll_agree {t : Khash checked Context} {m : AddressTable} (hm : t.Models m)
    (buffer : List UInt8) {targets : List UInt32}
    (hlook : ∀ target ∈ targets, m target = none → stops ∨ khExist t (khEnd t) = .ok false) :
    Except.Agree stops SameWrites (forwardAll buffer targets t) (forwardAll buffer targets m) := by
  induction targets generalizing t m with
  | nil => exact .ok ⟨hm, rfl⟩
  | cons target targets ih =>
    simp only [forwardAll]
    refine (hm.forwardTo_agree (hlook target List.mem_cons_self) buffer).bind ?_
    rintro ⟨t₁, copy⟩ ⟨m₁, copy'⟩ hto hto' ⟨hm₁, hcopy⟩
    simp only at hm₁ hcopy
    subst hcopy
    refine (ih hm₁ fun target' hmem hnone => ?_).bind ?_
    · rw [forwardTo_keeps hto]
      rw [AddressTable.forwardTo_eq] at hto'
      cases hto'
      have hnone' : m target' = none := by simpa [AddressTable.credit] using hnone
      exact hlook target' (List.mem_cons_of_mem _ hmem) hnone'
    · rintro ⟨t₂, copies⟩ ⟨m₂, copies'⟩ - - ⟨hm₂, hcopies⟩
      simp only at hm₂ hcopies
      subst hcopies
      exact .ok ⟨hm₂, rfl⟩

namespace Models

variable {t : Khash checked Context} {m : AddressTable} (hm : t.Models m)
include hm

theorem forwardData_agree {buffer : List UInt8} {source : UInt32} {rand : Nat → RandResult}
    (hlook : ∀ address, LooksUp m rand source buffer.length address → m address = none →
      stops ∨ khExist t (khEnd t) = .ok false) :
    Except.Agree stops SameWrites (forwardData buffer source rand t) (forwardData buffer source rand m) := by
  cases hkey : m source with
  | none =>
    rw [forwardData_of_end (hm.unknown_iff.2 hkey) rfl hm.khExist_end_ne,
      AddressTable.forwardData_of_none hkey]
    exact hm.skip_agree (hlook source .source hkey)
  | some entry =>
    obtain ⟨i, hget, hend, hexist, hvalue, hset⟩ := hm.lookup hkey
    obtain ⟨t₁, hset, hm₁⟩ := hset (entry.countIn buffer.length)
    simp only [forwardData_eq, hget, hexist, hvalue, hset, Table.khGet_of_some hkey,
      Table.khExist_of_some hkey, Table.khValue_of_some hkey, Table.khSetValue_of_some hkey,
      Except.ok_bind, Bool.not_true, Bool.false_eq_true, if_false]
    refine .bind_same fun targets htargets => hm₁.forwardAll_agree buffer fun target hmem hnone => ?_
    rw [khExist_end_khSetValue hset]
    refine hlook target (.target (Table.khGet_of_some hkey) (by simp [khEnd])
      (Table.khValue_of_some hkey) htargets hmem) ?_
    rw [Table.set_apply] at hnone
    split at hnone
    · cases hnone
    · exact hnone

/-- A packet is handled as over the finite map. If the handling of a data frame looks up
    an unknown address, the end of the table has to be testable, or the handler may stop. -/
theorem handlePacket_agree (hsize : t.size < 2 ^ 30) {order : ByteOrder} (p : Packet)
    (hlook : ∀ source address, Request.parse order p.buffer p.rand = .ok (.data source) →
      LooksUp m p.rand source p.buffer.length address → m address = none →
      stops ∨ khExist t (khEnd t) = .ok false) :
    Except.Agree stops SameWrites (handlePacket order p.fd p.buffer p.rand t)
      (handlePacket order p.fd p.buffer p.rand m) := by
  rw [handlePacket_eq, handlePacket_eq]
  refine .bind_same fun r hparse => ?_
  cases r with
  | newAddress address => exact hm.cmdNewAddress_agree hsize order p.fd address
  | connect source target => exact hm.cmdConnect_agree hsize source target
  | setPolicy policy target => exact hm.cmdPolicy_agree policy target
  | data source => exact hm.forwardData_agree fun address => hlook source address hparse
  | unhandled => exact .ok ⟨hm, rfl⟩

end Models

end Khash

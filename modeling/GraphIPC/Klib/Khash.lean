-- SUMMARY: khash.h as it is written: flags packed into words, triangular probing and resizing in place.
import GraphIPC.Klib.Table

/-!
# khash

An open-addressing hash table for 32-bit keys. The number of buckets is zero or
a power of two, and two bits of flags tell of each bucket whether it is empty or
its key was deleted. A bucket is named by its index, and the index behind the
last bucket stands for a key that is not there.

Indices and sizes are `khint_t`, here natural numbers that are reduced where the
code may overflow. Allocations are taken to succeed.
-/

/-- `kh_##name##_t`. No memory is allocated for the flags, keys and values of a
    table without buckets. With `checked` set, an access to a bucket that the
    table does not have stops the run; without it, such an access goes where the
    code makes it go. -/
structure Khash (checked : Bool) (Value : Type) where
  nBuckets : Nat
  size : Nat
  nOccupied : Nat
  upperBound : Nat
  flags : List UInt32
  keys : List UInt32
  vals : List Value
  deriving DecidableEq, Repr

/-! ## Flags -/

/-- `flag[i>>4]>>((i&0xfU)<<1)` tested for the given bits. -/
def acTest (flag : List UInt32) (i : Nat) (bits : UInt32) : Except Fault Bool := do
  let word ← readOr flag[i >>> 4]?
  return word >>> UInt32.ofNat ((i &&& 0xf) <<< 1) &&& bits ≠ 0

/-- `__ac_isempty` -/
def acIsempty (flag : List UInt32) (i : Nat) : Except Fault Bool := acTest flag i 2

/-- `__ac_isdel` -/
def acIsdel (flag : List UInt32) (i : Nat) : Except Fault Bool := acTest flag i 1

/-- `__ac_iseither` -/
def acIseither (flag : List UInt32) (i : Nat) : Except Fault Bool := acTest flag i 3

/-- `flag[i>>4]&=~(bits<<((i&0xfU)<<1))` -/
def acClear (flag : List UInt32) (i : Nat) (bits : UInt32) : Except Fault (List UInt32) := do
  let word ← readOr flag[i >>> 4]?
  return flag.set (i >>> 4) (word &&& ~~~(bits <<< UInt32.ofNat ((i &&& 0xf) <<< 1)))

/-- `__ac_set_isempty_false` -/
def acSetIsemptyFalse (flag : List UInt32) (i : Nat) : Except Fault (List UInt32) :=
  acClear flag i 2

/-- `__ac_set_isboth_false` -/
def acSetIsbothFalse (flag : List UInt32) (i : Nat) : Except Fault (List UInt32) :=
  acClear flag i 3

/-- `__ac_set_isdel_true` -/
def acSetIsdelTrue (flag : List UInt32) (i : Nat) : Except Fault (List UInt32) := do
  let word ← readOr flag[i >>> 4]?
  return flag.set (i >>> 4) (word ||| (1 : UInt32) <<< UInt32.ofNat ((i &&& 0xf) <<< 1))

/-- `__ac_fsize`: the words of flags for so many buckets. -/
def acFsize (m : Nat) : Nat := if m < 16 then 1 else m >>> 4

/-- `kroundup32` -/
def kroundup32 (x : UInt32) : UInt32 :=
  let x := x - 1
  let x := x ||| x >>> 1
  let x := x ||| x >>> 2
  let x := x ||| x >>> 4
  let x := x ||| x >>> 8
  let x := x ||| x >>> 16
  x + 1

/-- `(khint_t)(m * __ac_HASH_UPPER + 0.5)`, for the factor 0.77. -/
def acUpper (m : Nat) : Nat := (77 * m + 50) / 100

/-- `kh_int_hash_func` -/
def khIntHashFunc (key : UInt32) : UInt32 := key

/-- Assign to an element of an array. -/
def writeAt {α : Type} (l : List α) (i : Nat) (v : α) : Except Fault (List α) :=
  if i < l.length then .ok (l.set i v) else .error .outOfBounds

namespace Khash

variable {checked : Bool} {Value : Type}

/-- `kh_init` -/
def init : Khash checked Value where
  nBuckets := 0
  size := 0
  nOccupied := 0
  upperBound := 0
  flags := []
  keys := []
  vals := []

/-! ## Lookup -/

/-- Bucket `i` is about to be examined. -/
def examine (h : Khash checked Value) (i : Nat) : Except Fault Unit :=
  if checked ∧ h.nBuckets ≤ i then .error (.bucket i) else .ok ()

/-- The condition of the probing loops: the bucket is in use, and not for this
    key. -/
def passes (h : Khash checked Value) (key : UInt32) (i : Nat) : Except Fault Bool := do
  h.examine i
  if ← acIsempty h.flags i then return false
  if ← acIsdel h.flags i then return true
  return (← readOr h.keys[i]?) ≠ key

/-- `(i + (++step)) & mask`, from the step before. -/
def next (mask i step : Nat) : Nat := (i + (step + 1)) % 2 ^ 32 &&& mask

/-- `__hash_func(key) & mask` -/
def home (mask : Nat) (key : UInt32) : Nat := (khIntHashFunc key).toNat &&& mask

/-- The loop of `kh_get`. -/
def getLoop (h : Khash checked Value) (key : UInt32) (last : Nat) :
    (fuel i step : Nat) → Except Fault Nat
  | 0, _, _ => .error .unfinished
  | fuel + 1, i, step => do
    if ← h.passes key i then
      let i := next (h.nBuckets - 1) i step
      if i = last then return h.nBuckets
      h.getLoop key last fuel i (step + 1)
    else
      if ← acIseither h.flags i then return h.nBuckets
      return i

/-- `kh_get` -/
def get (h : Khash checked Value) (key : UInt32) : Except Fault Nat :=
  if h.nBuckets ≠ 0 then
    let i := home (h.nBuckets - 1) key
    h.getLoop key i (2 * h.nBuckets) i 0
  else
    .ok 0

/-! ## Resizing -/

/-- The arrays that `kh_resize` works on. -/
structure Rehash (Value : Type) where
  flags : List UInt32
  newFlags : List UInt32
  keys : List UInt32
  vals : List Value

/-- `while (!__ac_isempty(new_flags, i)) i = (i + (++step)) & new_mask;` -/
def emptyLoop (newFlags : List UInt32) (newMask : Nat) : (fuel i step : Nat) → Except Fault Nat
  | 0, _, _ => .error .unfinished
  | fuel + 1, i, step => do
    if ← acIsempty newFlags i then return i
    emptyLoop newFlags newMask fuel (next newMask i step) (step + 1)

/-- `i < h->n_buckets && __ac_iseither(h->flags, i) == 0` -/
def presentIn (nBuckets : Nat) (flags : List UInt32) (i : Nat) : Except Fault Bool :=
  if i < nBuckets then (!·) <$> acIseither flags i else .ok false

/-- The kick-out process: place an element, and then the one that was in its
    place. -/
def kickOut (nBuckets newNBuckets : Nat) :
    (fuel : Nat) → (key : UInt32) → (val : Value) → Rehash Value → Except Fault (Rehash Value)
  | 0, _, _, _ => .error .unfinished
  | fuel + 1, key, val, r => do
    let newMask := newNBuckets - 1
    let i ← emptyLoop r.newFlags newMask newNBuckets (home newMask key) 0
    let newFlags ← acSetIsemptyFalse r.newFlags i
    let present ← presentIn nBuckets r.flags i
    let keys ← writeAt r.keys i key
    let vals ← writeAt r.vals i val
    if present then
      let key ← readOr r.keys[i]?
      let val ← readOr r.vals[i]?
      let flags ← acSetIsdelTrue r.flags i
      kickOut nBuckets newNBuckets fuel key val { flags, newFlags, keys, vals }
    else
      return { r with newFlags, keys, vals }

/-- One round of the rehashing loop. -/
def rehashBucket (nBuckets newNBuckets : Nat) (r : Rehash Value) (j : Nat) :
    Except Fault (Rehash Value) := do
  if ← acIseither r.flags j then return r
  let key ← readOr r.keys[j]?
  let val ← readOr r.vals[j]?
  let flags ← acSetIsdelTrue r.flags j
  kickOut nBuckets newNBuckets (nBuckets + 1) key val { r with flags }

/-- `realloc` of an array to `n` elements. What an added element holds is
    indeterminate. -/
def realloc {α : Type} [Inhabited α] (n : Nat) (l : List α) : List α :=
  l.take n ++ List.replicate (n - l.length) default

/-- The arrays grow before the elements are moved. -/
def grow {α : Type} [Inhabited α] (nBuckets newNBuckets : Nat) (l : List α) : List α :=
  if nBuckets < newNBuckets then realloc newNBuckets l else l

/-- The arrays shrink after the elements were moved. -/
def shrink {α : Type} [Inhabited α] (nBuckets newNBuckets : Nat) (l : List α) : List α :=
  if newNBuckets < nBuckets then realloc newNBuckets l else l

/-- The number of buckets that `kh_resize` makes of the one it is asked for. -/
def roundBuckets (newNBuckets : Nat) : Nat :=
  let newNBuckets := (kroundup32 (UInt32.ofNat newNBuckets)).toNat
  if newNBuckets < 4 then 4 else newNBuckets

variable [Inhabited Value]

/-- The part of `kh_resize` that follows the rounding. -/
def resizeTo (h : Khash checked Value) (newNBuckets : Nat) :
    Except Fault (Khash checked Value) := do
  if acUpper newNBuckets ≤ h.size then return h
  let newFlags := List.replicate (acFsize newNBuckets) 0xaaaaaaaa
  let r ← (List.range h.nBuckets).foldlM (rehashBucket h.nBuckets newNBuckets) {
    flags := h.flags
    newFlags
    keys := grow h.nBuckets newNBuckets h.keys
    vals := grow h.nBuckets newNBuckets h.vals }
  return {
    nBuckets := newNBuckets
    size := h.size
    nOccupied := h.size
    upperBound := acUpper newNBuckets
    flags := r.newFlags
    keys := shrink h.nBuckets newNBuckets r.keys
    vals := shrink h.nBuckets newNBuckets r.vals }

/-- `kh_resize` -/
def resize (h : Khash checked Value) (newNBuckets : Nat) : Except Fault (Khash checked Value) :=
  h.resizeTo (roundBuckets newNBuckets)

/-! ## Insertion -/

omit [Inhabited Value] in
/-- The loop of `kh_put`: the values of `x`, `i` and `site` after it. -/
def putLoop (h : Khash checked Value) (key : UInt32) (last : Nat) :
    (fuel i step site : Nat) → Except Fault (Nat × Nat × Nat)
  | 0, _, _, _ => .error .unfinished
  | fuel + 1, i, step, site => do
    if ← h.passes key i then
      let site := bif ← acIsdel h.flags i then i else site
      let i := next (h.nBuckets - 1) i step
      if i = last then return (site, i, site)
      h.putLoop key last fuel i (step + 1) site
    else
      return (h.nBuckets, i, site)

omit [Inhabited Value] in
/-- The bucket that `kh_put` settles on. -/
def putIndex (h : Khash checked Value) (key : UInt32) : Except Fault Nat := do
  let i := home (h.nBuckets - 1) key
  h.examine i
  if ← acIsempty h.flags i then return i
  let (x, i, site) ← h.putLoop key i (2 * h.nBuckets) i 0 h.nBuckets
  if x = h.nBuckets then
    if (← acIsempty h.flags i) ∧ site ≠ h.nBuckets then return site
    return i
  return x

/-- `kh_put` clears out deleted keys or adds buckets if too many are in use. -/
def makeRoom (h : Khash checked Value) : Except Fault (Khash checked Value) :=
  if h.upperBound ≤ h.nOccupied then
    if (h.size <<< 1) % 2 ^ 32 < h.nBuckets then h.resize (h.nBuckets - 1)
    else h.resize ((h.nBuckets + 1) % 2 ^ 32)
  else
    .ok h

/-- `kh_put` -/
def put (h : Khash checked Value) (key : UInt32) : Except Fault (Khash checked Value × Nat) := do
  let h ← h.makeRoom
  let x ← h.putIndex key
  h.examine x
  if ← acIsempty h.flags x then
    let keys ← writeAt h.keys x key
    let flags ← acSetIsbothFalse h.flags x
    return ({ h with keys, flags, size := h.size + 1, nOccupied := h.nOccupied + 1 }, x)
  if ← acIsdel h.flags x then
    let keys ← writeAt h.keys x key
    let flags ← acSetIsbothFalse h.flags x
    return ({ h with keys, flags, size := h.size + 1 }, x)
  return (h, x)

/-- The macros that reach into a table look at the bucket they are given. -/
instance : KhTable (Khash checked Value) Nat UInt32 Value where
  khInit := init
  khGet := get
  khEnd h := h.nBuckets
  khExist h i := do
    h.examine i
    return !(← acIseither h.flags i)
  khValue h i := do
    h.examine i
    readOr h.vals[i]?
  khSetValue h i v := do
    h.examine i
    return { h with vals := ← writeAt h.vals i v }
  khPut := put

end Khash

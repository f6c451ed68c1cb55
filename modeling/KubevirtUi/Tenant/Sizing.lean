import KubevirtUi.Tenant.Covered
import Mathlib.Data.Rat.Floor
import Mathlib.Tactic.Positivity

/-!
# What a tenant reserves

A tenant is sized from its description: its workers and one more, and its control plane.
The sums and products are those of 64-bit integers, while the quantities in the description
are only bounded one by one. What is reserved covers the cluster exactly where the sums for
its memory and for its root disks stay below `2 ^ 63`.
-/

namespace Tenant

open List

/-- What the code relies on of Kubernetes quantities, and how Go puts a text in quotes. -/
structure Quantities where
  parseQuantity : String → Except String ℚ
  quoted : String → String

/-- The value of a quantity: an integer, rounded away from zero. -/
def value (q : ℚ) : Int64 := Int64.ofInt (if 0 ≤ q then ⌈q⌉ else ⌊q⌋)

def newMilliQuantity (milli : Int64) : ℚ := milli.toInt / 1000

def newQuantity (n : Int64) : ℚ := n.toInt

def cpPerReplicaMilliCPU : Int64 := 500
def cpPerReplicaMemory : Int64 := (1 : Int64) <<< 30

def virtLauncherMonitorOverhead : Int64 := (25 : Int64) <<< 20
def virtLauncherOverhead : Int64 := (100 : Int64) <<< 20
def virtlogdOverhead : Int64 := (20 : Int64) <<< 20
def virtqemudOverhead : Int64 := (35 : Int64) <<< 20
def qemuOverhead : Int64 := (30 : Int64) <<< 20
def iothreadOverhead : Int64 := (8 : Int64) <<< 20
def videoRAMOverhead : Int64 := (32 : Int64) <<< 20
def perVCPUOverhead : Int64 := (8 : Int64) <<< 20
def pagetableDivisor : Int64 := 512
def overheadNumerator : Int64 := 125
def overheadDenominator : Int64 := 100

/-- The shared golden image, and the floor of a worker's root disk. -/
def goldenSize : String := "20Gi"

structure Sizing where
  workers : Int64
  vcpu : Int64
  memory : String
  disk : String
  cpReplicas : Int64
  talosWorkers : Bool

/-- What virt-launcher asks for beyond the guest's memory. -/
def vmiMemoryOverhead (memory vcpu : Int64) : Int64 :=
  let fixed := virtLauncherMonitorOverhead + virtLauncherOverhead + virtlogdOverhead +
    virtqemudOverhead + qemuOverhead + iothreadOverhead + videoRAMOverhead
  let raw := fixed + memory / pagetableDivisor + perVCPUOverhead * vcpu
  raw * overheadNumerator / overheadDenominator

section Reserve

variable (K : Quantities)

def bytesOf (quantity : String) : Except String Int64 :=
  match K.parseQuantity quantity with
  | .error err => .error (K.quoted quantity ++ " is not a quantity: " ++ err)
  | .ok parsed => .ok (value parsed)

/-- The bigger of two quantities. The second wins a tie and over what cannot be read. -/
def largerOf (a b : String) : Except String Int64 := do
  let floor ← bytesOf K b
  match bytesOf K a with
  | .error _ => return floor
  | .ok value => return if value < floor then floor else value

/-- Sizes the tenant from the request. -/
def reserve (s : Sizing) : Except String (Quota ℚ) := do
  -- One worker of headroom, because replacing a worker overlaps with it.
  let surge := s.workers + 1
  let memoryPerWorker ← (bytesOf K s.memory).mapError ("worker memory: " ++ ·)
  let _ ← (bytesOf K s.disk).mapError ("worker disk: " ++ ·)
  let cpuMilli := surge * s.vcpu * 1000 + s.cpReplicas * cpPerReplicaMilliCPU
  let memory := surge * (memoryPerWorker + vmiMemoryOverhead memoryPerWorker s.vcpu) +
    s.cpReplicas * cpPerReplicaMemory
  let storage : Int64 := 0
  if s.talosWorkers then
    let root ← largerOf K s.disk goldenSize
    return ⟨newMilliQuantity cpuMilli, newQuantity memory, newQuantity (storage + surge * root)⟩
  return ⟨newMilliQuantity cpuMilli, newQuantity memory, newQuantity storage⟩

/-- Of Kubernetes quantities: none is more than `2 ^ 63 - 1` in magnitude, and what the size
of the golden image is. -/
structure Quantities.Documented : Prop where
  capped : ∀ s q, K.parseQuantity s = .ok q → |q| ≤ 2 ^ 63 - 1
  golden : K.parseQuantity goldenSize = .ok (20 * 2 ^ 30)

/-- What the API admits, with the memory and the disk that the strings stand for. -/
structure Admitted (s : Sizing) (memory disk : ℚ) : Prop where
  workers : 1 ≤ s.workers.toInt ∧ s.workers.toInt ≤ 20
  vcpu : 1 ≤ s.vcpu.toInt ∧ s.vcpu.toInt ≤ 32
  cpReplicas : 1 ≤ s.cpReplicas.toInt ∧ s.cpReplicas.toInt ≤ 3
  memory : K.parseQuantity s.memory = .ok memory ∧ 0 < memory
  disk : K.parseQuantity s.disk = .ok disk ∧ 0 < disk

end Reserve

/-- The terms for a virtual machine, before the margin. -/
def terms (memory : ℚ) (vcpu : ℤ) : ℚ := 250 * 2 ^ 20 + memory / 512 + 8 * 2 ^ 20 * vcpu

/-- What is added to the memory of a worker, in bytes, if no integer wraps around. -/
def overhead (bytes vcpu : ℤ) : ℤ :=
  (250 * 2 ^ 20 + bytes / 512 + 8 * 2 ^ 20 * vcpu) * 125 / 100

/-- The numbers that are computed on the way, if no integer wraps around. -/
def intermediates (s : Sizing) (memory disk : ℚ) : List ℤ :=
  let surge := s.workers.toInt + 1
  let vcpu := s.vcpu.toInt
  let replicas := s.cpReplicas.toInt
  let root := max ⌈disk⌉ (20 * 2 ^ 30)
  let worker := ⌈memory⌉ + overhead ⌈memory⌉ vcpu
  [surge, surge * vcpu, surge * vcpu * 1000, replicas * 500,
    surge * vcpu * 1000 + replicas * 500,
    ⌈memory⌉, ⌈disk⌉, 250 * 2 ^ 20 + ⌈memory⌉ / 512, 8 * 2 ^ 20 * vcpu,
    250 * 2 ^ 20 + ⌈memory⌉ / 512 + 8 * 2 ^ 20 * vcpu,
    (250 * 2 ^ 20 + ⌈memory⌉ / 512 + 8 * 2 ^ 20 * vcpu) * 125,
    worker, surge * worker, replicas * 2 ^ 30, surge * worker + replicas * 2 ^ 30] ++
    if s.talosWorkers then [surge * root] else []

/-- What is reserved, if no integer wraps around. -/
def exact (s : Sizing) (memory disk : ℚ) : Quota ℚ where
  cpu := ((s.workers.toInt + 1) * s.vcpu.toInt * 1000 + s.cpReplicas.toInt * 500 : ℤ) / 1000
  memory := ((s.workers.toInt + 1) * (⌈memory⌉ + overhead ⌈memory⌉ s.vcpu.toInt) +
    s.cpReplicas.toInt * 2 ^ 30 : ℤ)
  storage := if s.talosWorkers then ((s.workers.toInt + 1) * max ⌈disk⌉ (20 * 2 ^ 30) : ℤ) else 0

/-- Bounds under which neither the memory nor the root disks overflow. -/
def Fitting (s : Sizing) (memory disk : ℚ) : Prop :=
  (s.workers.toInt + 1) * (⌈memory⌉ + overhead ⌈memory⌉ s.vcpu.toInt) +
      s.cpReplicas.toInt * 2 ^ 30 < 2 ^ 63 ∧
    (s.talosWorkers = true → (s.workers.toInt + 1) * max ⌈disk⌉ (20 * 2 ^ 30) < 2 ^ 63)

/-- One quota is within another, dimension by dimension. -/
structure Quota.Within (a b : Quota ℚ) : Prop where
  cpu : a.cpu ≤ b.cpu
  memory : a.memory ≤ b.memory
  storage : a.storage ≤ b.storage

/-- One sizing asks for no more than another: in no input. -/
structure Sizing.Within (a b : Sizing) : Prop where
  workers : a.workers.toInt ≤ b.workers.toInt
  vcpu : a.vcpu.toInt ≤ b.vcpu.toInt
  cpReplicas : a.cpReplicas.toInt ≤ b.cpReplicas.toInt
  talosWorkers : a.talosWorkers = true → b.talosWorkers = true

/-- What is reserved covers the cluster, and is computed as it should be. -/
structure Covers (K : Quantities) (s : Sizing) (memory disk : ℚ) (quota : Quota ℚ) : Prop where
  coversCPU : ((s.workers.toInt + 1) * s.vcpu.toInt + s.cpReplicas.toInt / 2 : ℚ) ≤ quota.cpu
  coversMemory : ((s.workers.toInt + 1) * (memory + terms memory s.vcpu.toInt) +
    s.cpReplicas.toInt * 2 ^ 30 : ℚ) ≤ quota.memory
  coversStorage : s.talosWorkers = true →
    ((s.workers.toInt + 1) * max disk (20 * 2 ^ 30) : ℚ) ≤ quota.storage
  unwrapped : ∀ z ∈ intermediates s memory disk, InRange z
  nonneg : 0 ≤ quota.cpu ∧ 0 ≤ quota.memory ∧ 0 ≤ quota.storage
  grows : ∀ smaller less small before, Admitted K smaller less small → smaller.Within s →
    less ≤ memory → small ≤ disk → reserve K smaller = .ok before → before.Within quota

variable {bytes vcpu : ℤ} {quantity : String} {q : ℚ}

section Sums

variable {s : Sizing} {memory disk : ℚ} {K : Quantities}

theorem ofInt_tdiv_of_nonneg {a b : ℤ} (ha : 0 ≤ a) (ha' : a < 2 ^ 63) (hb : 0 ≤ b)
    (hb' : b < 2 ^ 63) : Int64.ofInt a / Int64.ofInt b = Int64.ofInt (a / b) := by
  have hmin : Int64.minValue.toInt = -2 ^ 63 := by decide
  have hmax : Int64.maxValue.toInt = 2 ^ 63 - 1 := by decide
  rw [← Int.tdiv_eq_ediv_of_nonneg ha, Int64.ofInt_tdiv] <;> omega

/-- The overhead is small enough to be computed for whatever memory there is. -/
theorem vmiMemoryOverhead_eq (hbytes : 0 ≤ bytes) (hbytes' : bytes < 2 ^ 63) (hvcpu : 0 ≤ vcpu)
    (hvcpu' : vcpu ≤ 32) : vmiMemoryOverhead (Int64.ofInt bytes) (Int64.ofInt vcpu) =
      Int64.ofInt (overhead bytes vcpu) := by
  have hpages : Int64.ofInt bytes / pagetableDivisor = Int64.ofInt (bytes / 512) :=
    ofInt_tdiv_of_nonneg (b := 512) hbytes hbytes' (by decide) (by decide)
  have hraw : 0 ≤ (250 * 2 ^ 20 + bytes / 512 + 8 * 2 ^ 20 * vcpu) * 125 ∧
      (250 * 2 ^ 20 + bytes / 512 + 8 * 2 ^ 20 * vcpu) * 125 < 2 ^ 63 := by omega
  have hfixed : Int64.ofInt (250 * 2 ^ 20) =
      virtLauncherMonitorOverhead + virtLauncherOverhead + virtlogdOverhead + virtqemudOverhead +
        qemuOverhead + iothreadOverhead + videoRAMOverhead := by
    decide
  have hperVCPU : Int64.ofInt (8 * 2 ^ 20) = perVCPUOverhead := by decide
  rw [overhead, ← ofInt_tdiv_of_nonneg hraw.1 hraw.2 (by decide) (by decide),
    Int64.ofInt_mul _ 125, Int64.ofInt_add, Int64.ofInt_add, Int64.ofInt_mul _ vcpu, ← hpages,
    hfixed, hperVCPU]
  rfl

theorem overhead_nonneg (hbytes : 0 ≤ bytes) (hvcpu : 0 ≤ vcpu) : 0 ≤ overhead bytes vcpu := by
  rw [overhead]
  omega

theorem overhead_mono {a b v w : ℤ} (hab : a ≤ b) (hvw : v ≤ w) : overhead a v ≤ overhead b w := by
  rw [overhead, overhead]
  omega

theorem bytesOf_eq (h : K.parseQuantity quantity = .ok q) (hq : 0 < q) :
    bytesOf K quantity = .ok (Int64.ofInt ⌈q⌉) := by
  rw [bytesOf, h]
  simp only [value, if_pos hq.le]

theorem ceil_range (hK : K.Documented) (h : K.parseQuantity quantity = .ok q) (hq : 0 < q) :
    0 < ⌈q⌉ ∧ ⌈q⌉ < 2 ^ 63 := by
  refine ⟨Int.ceil_pos.mpr hq, ?_⟩
  have hcap : q ≤ ((2 ^ 63 - 1 : ℤ) : ℚ) := by
    have hle := le_trans (le_abs_self q) (hK.capped quantity q h)
    exact_mod_cast hle
  have hceil := Int.ceil_le.mpr hcap
  omega

theorem largerOf_eq (hK : K.Documented) {a : String} (h : K.parseQuantity a = .ok q) (hq : 0 < q) :
    largerOf K a goldenSize = .ok (Int64.ofInt (max ⌈q⌉ (20 * 2 ^ 30))) := by
  have hfloor : bytesOf K goldenSize = .ok (Int64.ofInt (20 * 2 ^ 30)) := by
    rw [bytesOf_eq hK.golden (by norm_num)]
    norm_num
  have hlt : Int64.ofInt ⌈q⌉ < Int64.ofInt (20 * 2 ^ 30) ↔ ⌈q⌉ < 20 * 2 ^ 30 := by
    have hrange := ceil_range hK h hq
    rw [Int64.lt_iff_toInt_lt, toInt_ofInt ⟨by omega, hrange.2⟩, toInt_ofInt (by decide)]
  rw [largerOf, hfloor, bytesOf_eq h hq]
  show (Except.ok _ : Except String Int64) = _
  by_cases hsmall : ⌈q⌉ < 20 * 2 ^ 30
  · rw [if_pos (hlt.mpr hsmall), max_eq_right hsmall.le]
  · rw [if_neg (mt hlt.mp hsmall), max_eq_left (not_lt.mp hsmall)]

section

variable (hK : K.Documented) (h : Admitted K s memory disk)

include hK h

theorem reserve_eq : reserve K s = .ok {
      cpu := newMilliQuantity (Int64.ofInt
        ((s.workers.toInt + 1) * s.vcpu.toInt * 1000 + s.cpReplicas.toInt * 500))
      memory := newQuantity (Int64.ofInt
        ((s.workers.toInt + 1) * (⌈memory⌉ + overhead ⌈memory⌉ s.vcpu.toInt) +
          s.cpReplicas.toInt * 2 ^ 30))
      storage := newQuantity (Int64.ofInt
        (if s.talosWorkers then (s.workers.toInt + 1) * max ⌈disk⌉ (20 * 2 ^ 30) else 0)) } := by
  have hmemory := bytesOf_eq h.memory.1 h.memory.2
  have hdisk := bytesOf_eq h.disk.1 h.disk.2
  have hrange := ceil_range hK h.memory.1 h.memory.2
  have hoverhead := vmiMemoryOverhead_eq hrange.1.le hrange.2 (by linarith only [h.vcpu.1]) h.vcpu.2
  rw [Int64.ofInt_toInt] at hoverhead
  rw [reserve, hmemory, hdisk]
  simp only [Int64.ofInt_add, Int64.ofInt_mul, Int64.ofInt_toInt, ← hoverhead]
  cases s.talosWorkers with
  | false => rfl
  | true =>
    show (largerOf K s.disk goldenSize >>= _) = _
    rw [largerOf_eq hK h.disk.1 h.disk.2, if_pos rfl, Int64.ofInt_mul, Int64.ofInt_add,
      Int64.ofInt_toInt]
    show Except.ok _ = _
    rw [Int64.zero_add]
    rfl

/-- What a worker asks for in memory is positive, and so is the number of them. -/
theorem worker_pos : 2 ≤ s.workers.toInt + 1 ∧ 0 < ⌈memory⌉ + overhead ⌈memory⌉ s.vcpu.toInt := by
  have hmemory := (ceil_range hK h.memory.1 h.memory.2).1
  have hoverhead := overhead_nonneg hmemory.le (by linarith only [h.vcpu.1] : 0 ≤ s.vcpu.toInt)
  have hworkers := h.workers.1
  omega

theorem intermediates_range (hfits : Fitting s memory disk) :
    ∀ z ∈ intermediates s memory disk, InRange z := by
  have hm := ceil_range hK h.memory.1 h.memory.2
  have hd := ceil_range hK h.disk.1 h.disk.2
  obtain ⟨hsurge, hworker⟩ := worker_pos hK h
  obtain ⟨hw, hw'⟩ := h.workers
  obtain ⟨hv, hv'⟩ := h.vcpu
  obtain ⟨hr, hr'⟩ := h.cpReplicas
  have hcpu : 0 ≤ (s.workers.toInt + 1) * s.vcpu.toInt := mul_nonneg (by omega) (by omega)
  have hcpu' : (s.workers.toInt + 1) * s.vcpu.toInt ≤ 21 * 32 :=
    mul_le_mul (by omega) hv' (by omega) (by omega)
  have hmemory : ⌈memory⌉ + overhead ⌈memory⌉ s.vcpu.toInt ≤
      (s.workers.toInt + 1) * (⌈memory⌉ + overhead ⌈memory⌉ s.vcpu.toInt) :=
    le_mul_of_one_le_left hworker.le (by omega)
  have hsum := hfits.1
  have hroots : s.talosWorkers = true →
      0 ≤ (s.workers.toInt + 1) * max ⌈disk⌉ (20 * 2 ^ 30) :=
    fun _ => mul_nonneg (by omega) (by omega)
  intro z hz
  rw [intermediates] at hz
  simp only [mem_append, mem_cons, not_mem_nil, or_false] at hz
  obtain hz | hz := hz
  · rw [InRange]
    omega
  · by_cases htalos : s.talosWorkers = true
    · rw [if_pos htalos, mem_singleton] at hz
      have hdisks := hfits.2 htalos
      have hdisks' := hroots htalos
      rw [InRange]
      omega
    · rw [if_neg htalos] at hz
      cases hz

end

theorem fits_of_intermediates (h : ∀ z ∈ intermediates s memory disk, InRange z) :
    Fitting s memory disk := by
  constructor
  · exact (h _ (mem_append_left _ (by simp only [mem_cons, true_or, or_true]))).2
  · intro htalos
    refine (h _ (mem_append_right _ ?_)).2
    rw [if_pos htalos]
    exact mem_singleton_self _

theorem reserve_exact (hK : K.Documented) (h : Admitted K s memory disk)
    (hfits : Fitting s memory disk) : reserve K s = .ok (exact s memory disk) := by
  have hrange := intermediates_range hK h hfits
  have hcpu := hrange ((s.workers.toInt + 1) * s.vcpu.toInt * 1000 + s.cpReplicas.toInt * 500)
    (mem_append_left _ (by simp only [mem_cons, true_or, or_true]))
  have hmemory := hrange ((s.workers.toInt + 1) *
      (⌈memory⌉ + overhead ⌈memory⌉ s.vcpu.toInt) + s.cpReplicas.toInt * 2 ^ 30)
    (mem_append_left _ (by simp only [mem_cons, true_or, or_true]))
  rw [reserve_eq hK h, exact, newMilliQuantity, newQuantity, newQuantity, toInt_ofInt hcpu,
    toInt_ofInt hmemory]
  cases htalos : s.talosWorkers with
  | false => rfl
  | true =>
    have hstorage := hrange ((s.workers.toInt + 1) * max ⌈disk⌉ (20 * 2 ^ 30))
      (mem_append_right _ (by rw [if_pos htalos]; exact mem_singleton_self _))
    rw [if_pos rfl, if_pos rfl, toInt_ofInt hstorage]

section

variable {a b : Sizing} {less small : ℚ} (hK : K.Documented) (ha : Admitted K a less small)
  (hab : a.Within b) (hmemory : less ≤ memory) (hdisk : small ≤ disk)

include hK ha hab hmemory hdisk

/-- What the workers take in memory and on disk is not less for a larger sizing. -/
theorem products_mono : (a.workers.toInt + 1) * (⌈less⌉ + overhead ⌈less⌉ a.vcpu.toInt) ≤
        (b.workers.toInt + 1) * (⌈memory⌉ + overhead ⌈memory⌉ b.vcpu.toInt) ∧
      (a.workers.toInt + 1) * max ⌈small⌉ (20 * 2 ^ 30) ≤
        (b.workers.toInt + 1) * max ⌈disk⌉ (20 * 2 ^ 30) := by
  obtain ⟨hsurge, hworker⟩ := worker_pos hK ha
  have hoverhead := overhead_mono (Int.ceil_mono hmemory) hab.vcpu
  have hceil := Int.ceil_mono hmemory
  have hroot := Int.ceil_mono hdisk
  have hworkers := hab.workers
  constructor
  · exact mul_le_mul (by omega) (by omega) hworker.le (by omega)
  · exact mul_le_mul (by omega) (by omega) (by omega) (by omega)

theorem fits_of_within (hfits : Fitting b memory disk) : Fitting a less small := by
  obtain ⟨hwork, hroots⟩ := products_mono hK ha hab hmemory hdisk
  have hreplicas := hab.cpReplicas
  constructor
  · have hbound := hfits.1
    omega
  · intro htalos
    exact lt_of_le_of_lt hroots (hfits.2 (hab.talosWorkers htalos))

theorem exact_within : (exact a less small).Within (exact b memory disk) := by
  obtain ⟨hwork, hroots⟩ := products_mono hK ha hab hmemory hdisk
  obtain ⟨hsurge, -⟩ := worker_pos hK ha
  have hworkers := hab.workers
  have hreplicas := hab.cpReplicas
  have hvcpu := ha.vcpu.1
  constructor
  · have hmul : (a.workers.toInt + 1) * a.vcpu.toInt ≤ (b.workers.toInt + 1) * b.vcpu.toInt :=
      mul_le_mul (by omega) hab.vcpu (by omega) (by omega)
    rw [exact, exact]
    apply div_le_div_of_nonneg_right _ (by norm_num)
    exact Int.cast_le.mpr (by omega)
  · exact Int.cast_le.mpr (by omega)
  · have hnonneg : 0 ≤ (b.workers.toInt + 1) * max ⌈disk⌉ (20 * 2 ^ 30) :=
      mul_nonneg (by omega) (by omega)
    simp only [exact]
    by_cases htalos : a.talosWorkers = true
    · rw [if_pos htalos, if_pos (hab.talosWorkers htalos)]
      exact Int.cast_le.mpr hroots
    · rw [if_neg htalos]
      split
      · exact Int.cast_nonneg hnonneg
      · exact le_refl 0

end

theorem terms_le_overhead (hmemory : 0 < memory) (hvcpu : 0 ≤ vcpu) :
    terms memory vcpu ≤ overhead ⌈memory⌉ vcpu := by
  have hceil : 0 < ⌈memory⌉ := Int.ceil_pos.mpr hmemory
  have hpages : memory / 512 ≤ ((⌈memory⌉ / 512 + 1 : ℤ) : ℚ) := by
    rw [div_le_iff₀ (by norm_num)]
    calc memory ≤ ⌈memory⌉ := Int.le_ceil memory
      _ ≤ (((⌈memory⌉ / 512 + 1) * 512 : ℤ) : ℚ) := Int.cast_le.mpr (by omega)
      _ = _ := by push_cast; rfl
  have hmargin : 250 * 2 ^ 20 + (⌈memory⌉ / 512 + 1) + 8 * 2 ^ 20 * vcpu ≤
      overhead ⌈memory⌉ vcpu := by
    rw [overhead]
    omega
  calc terms memory vcpu
      ≤ 250 * 2 ^ 20 + ((⌈memory⌉ / 512 + 1 : ℤ) : ℚ) + 8 * 2 ^ 20 * vcpu := by
        rw [terms]
        gcongr
    _ = ((250 * 2 ^ 20 + (⌈memory⌉ / 512 + 1) + 8 * 2 ^ 20 * vcpu : ℤ) : ℚ) := by push_cast; ring
    _ ≤ _ := Int.cast_le.mpr hmargin

theorem covers_exact (hK : K.Documented) (h : Admitted K s memory disk)
    (hfits : Fitting s memory disk) : Covers K s memory disk (exact s memory disk) := by
  obtain ⟨hsurge, hworker⟩ := worker_pos hK h
  have hsurge' : (0 : ℚ) ≤ s.workers.toInt + 1 := by exact_mod_cast (by omega)
  have hv := h.vcpu.1
  have hr := h.cpReplicas.1
  refine ⟨?_, ?_, fun htalos => ?_, intermediates_range hK h hfits, ⟨?_, ?_, ?_⟩, ?_⟩
  · apply le_of_eq
    simp only [exact]
    push_cast
    ring
  · have hterms := terms_le_overhead h.memory.2 (by omega : 0 ≤ s.vcpu.toInt)
    have hceil := Int.le_ceil memory
    simp only [exact]
    push_cast
    gcongr
    norm_num
  · have hceil := Int.le_ceil disk
    simp only [exact, if_pos htalos]
    push_cast
    gcongr
    norm_num
  · have hcpu : 0 ≤ (s.workers.toInt + 1) * s.vcpu.toInt := mul_nonneg (by omega) (by omega)
    exact div_nonneg (Int.cast_nonneg (by omega)) (by norm_num)
  · exact Int.cast_nonneg (add_nonneg (mul_nonneg (by omega) hworker.le) (by omega))
  · simp only [exact]
    split
    · exact Int.cast_nonneg (mul_nonneg (by omega) (by omega))
    · exact le_refl 0
  · intro smaller less small before hsmaller hwithin hless hsmall hbefore
    have hfewer := fits_of_within hK hsmaller hwithin hless hsmall hfits
    rw [reserve_exact hK hsmaller hfewer] at hbefore
    obtain rfl := Except.ok.inj hbefore
    exact exact_within hK hsmaller hwithin hless hsmall

end Sums

/-- The reservation covers the cluster exactly where the sums stay in the range. -/
theorem covers_iff_fits {K : Quantities} {s : Sizing} {memory disk : ℚ} (hK : K.Documented)
    (h : Admitted K s memory disk) :
    (∀ quota, reserve K s = .ok quota → Covers K s memory disk quota) ↔ Fitting s memory disk := by
  constructor
  · intro hcovers
    exact fits_of_intermediates (hcovers _ (reserve_eq hK h)).unwrapped
  · intro hfits quota hquota
    rw [reserve_exact hK h hfits] at hquota
    obtain rfl := Except.ok.inj hquota
    exact covers_exact hK h hfits

/-- Three quantities, read as Kubernetes reads them. -/
def few : Quantities where
  parseQuantity s :=
    if s = "20Gi" then .ok (20 * 2 ^ 30)
    else if s = "2Gi" then .ok (2 * 2 ^ 30)
    else if s = "4Ei" then .ok (4 * 2 ^ 60)
    else .error "unable to parse quantity's suffix"
  quoted s := "\"" ++ s ++ "\""

theorem few_documented : few.Documented where
  capped s q h := by
    simp only [few] at h
    split_ifs at h <;> obtain rfl := Except.ok.inj h <;> norm_num
  golden := rfl

/-- One worker, on the golden image. -/
def single (memory : String) : Sizing where
  workers := 1
  vcpu := 2
  memory := memory
  disk := "20Gi"
  cpReplicas := 1
  talosWorkers := true

theorem covers_iff_fits_two : (∀ quota, reserve few (single "2Gi") = .ok quota →
      Covers few (single "2Gi") (2 * 2 ^ 30) (20 * 2 ^ 30) quota) ↔
    Fitting (single "2Gi") (2 * 2 ^ 30) (20 * 2 ^ 30) :=
  covers_iff_fits few_documented ⟨by decide, by decide, by decide, ⟨rfl, by norm_num⟩,
    ⟨rfl, by norm_num⟩⟩

/-- Twice four exbibytes are more than an integer holds, and the memory reserved is negative. -/
theorem reserve_exbibytes : few.Documented ∧
    Admitted few (single "4Ei") (4 * 2 ^ 60) (20 * 2 ^ 30) ∧
    ∃ quota, reserve few (single "4Ei") = .ok quota ∧ quota.memory < 0 ∧
      ¬ Covers few (single "4Ei") (4 * 2 ^ 60) (20 * 2 ^ 30) quota := by
  have hadmitted : Admitted few (single "4Ei") (4 * 2 ^ 60) (20 * 2 ^ 30) :=
    ⟨by decide, by decide, by decide, ⟨rfl, by norm_num⟩, ⟨rfl, by norm_num⟩⟩
  have hmemory : newQuantity (Int64.ofInt ((1 + 1) *
      (⌈(4 * 2 ^ 60 : ℚ)⌉ + overhead ⌈(4 * 2 ^ 60 : ℚ)⌉ 2) + 1 * 2 ^ 30)) < 0 := by
    decide +kernel
  refine ⟨few_documented, hadmitted, _, reserve_eq few_documented hadmitted, hmemory, ?_⟩
  intro hcovers
  exact absurd hcovers.nonneg.2.1 (not_le.mpr hmemory)

end Tenant

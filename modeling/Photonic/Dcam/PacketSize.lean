import Photonic.Dcam.Configure
import Photonic.Dcam.Table

namespace Photonic
namespace Dcam

/-- `for (candidate = unitBpp; candidate <= maxBpp; candidate += unitBpp)`, for as many
iterations as there is fuel. -/
def scanLoop (frameBytes target unitBpp maxBpp : ℕ) : ℕ → ℕ → ℕ → Option (ℕ × ℕ)
  | 0, _, _ => none
  | fuel + 1, candidate, below =>
    if maxBpp < candidate then some (below, 0)
    else if frameBytes % candidate ≠ 0 then
      scanLoop frameBytes target unitBpp maxBpp fuel ((candidate + unitBpp) % 2 ^ 32) below
    else if candidate ≤ target then
      scanLoop frameBytes target unitBpp maxBpp fuel ((candidate + unitBpp) % 2 ^ 32) candidate
    else some (below, candidate)

theorem scanLoop_eq (frameBytes target : ℕ) {unitBpp maxBpp : ℕ} (hunit : 0 < unitBpp)
    (hwrap : maxBpp + unitBpp < 2 ^ 32) (n : ℕ) {k below : ℕ} (hk : k + n = maxBpp / unitBpp) :
    scanLoop frameBytes target unitBpp maxBpp (n + 1) ((k + 1) * unitBpp) below =
      some (scanDivisors frameBytes target
        ((List.range' k n).map fun i => (i + 1) * unitBpp) below) := by
  induction n generalizing k below with
  | zero =>
    have hlt : maxBpp < (k + 1) * unitBpp := by
      rw [← Nat.div_lt_iff_lt_mul hunit]
      omega
    simp [scanLoop, scanDivisors, hlt]
  | succ n ih =>
    have hle : (k + 1) * unitBpp ≤ maxBpp := by
      rw [← Nat.le_div_iff_mul_le hunit]
      omega
    have hnext : ((k + 1) * unitBpp + unitBpp) % 2 ^ 32 = (k + 1 + 1) * unitBpp := by
      rw [Nat.mod_eq_of_lt (by omega), Nat.succ_mul (k + 1)]
    rw [List.range'_succ, List.map_cons, scanLoop, scanDivisors, if_neg (by omega), hnext]
    split_ifs
    · exact ih (by omega)
    · exact ih (by omega)
    · rfl

theorem scanLoop_ends {frameBytes target unitBpp maxBpp : ℕ} (hunit : 0 < unitBpp)
    (hwrap : maxBpp + unitBpp < 2 ^ 32) :
    scanLoop frameBytes target unitBpp maxBpp (maxBpp / unitBpp + 1) unitBpp 0 =
      some (scanDivisors frameBytes target (candidates unitBpp maxBpp) 0) := by
  have h : scanLoop frameBytes target unitBpp maxBpp (maxBpp / unitBpp + 1) ((0 + 1) * unitBpp) 0 =
      _ := scanLoop_eq frameBytes target hunit hwrap (maxBpp / unitBpp) (Nat.zero_add _)
  rwa [Nat.zero_add, Nat.one_mul, ← List.range_eq_range'] at h

structure Scanned (frameBytes target : ℕ) (cs : List ℕ) (below : ℕ) (found : ℕ × ℕ) : Prop where
  below_of_none : (∀ c ∈ cs, c ∣ frameBytes → target < c) → found.1 = below
  last : ∀ c ∈ cs, c ∣ frameBytes → c ≤ target →
    c ≤ found.1 ∧ found.1 ∈ cs ∧ found.1 ∣ frameBytes ∧ found.1 ≤ target
  above_of_none : (∀ c ∈ cs, c ∣ frameBytes → c ≤ target) → found.2 = 0
  first : ∀ c ∈ cs, c ∣ frameBytes → target < c →
    found.2 ≤ c ∧ found.2 ∈ cs ∧ found.2 ∣ frameBytes ∧ target < found.2

theorem scanDivisors_scanned (frameBytes target : ℕ) {cs : List ℕ}
    (hsorted : cs.Pairwise (· < ·)) (below : ℕ) :
    Scanned frameBytes target cs below (scanDivisors frameBytes target cs below) := by
  induction cs generalizing below with
  | nil => exact ⟨fun _ => rfl, nofun, fun _ => rfl, nofun⟩
  | cons c cs ih =>
    obtain ⟨hhead, htail⟩ := List.pairwise_cons.mp hsorted
    unfold scanDivisors
    split_ifs with hdvd hle
    · -- the candidate does not divide the frame
      have hnot : ¬c ∣ frameBytes := fun h => hdvd (Nat.mod_eq_zero_of_dvd h)
      have h := ih htail below
      refine ⟨fun hall => h.below_of_none fun d hd => hall d (List.mem_cons_of_mem _ hd), ?_,
        fun hall => h.above_of_none fun d hd => hall d (List.mem_cons_of_mem _ hd), ?_⟩
      · rintro d (_ | ⟨_, hd⟩) hdiv hdle
        · exact absurd hdiv hnot
        · obtain ⟨h₁, h₂, h₃⟩ := h.last d hd hdiv hdle
          exact ⟨h₁, List.mem_cons_of_mem _ h₂, h₃⟩
      · rintro d (_ | ⟨_, hd⟩) hdiv hdlt
        · exact absurd hdiv hnot
        · obtain ⟨h₁, h₂, h₃⟩ := h.first d hd hdiv hdlt
          exact ⟨h₁, List.mem_cons_of_mem _ h₂, h₃⟩
    · -- it divides the frame at or below the target, and is the last so far
      have hdiv : c ∣ frameBytes := Nat.dvd_of_mod_eq_zero (not_not.mp hdvd)
      have h := ih htail c
      refine ⟨fun hall => absurd (hall c List.mem_cons_self hdiv) (Nat.not_lt.mpr hle), ?_,
        fun hall => h.above_of_none fun d hd => hall d (List.mem_cons_of_mem _ hd), ?_⟩
      · have hlast : c ≤ (scanDivisors frameBytes target cs c).1 ∧
            (scanDivisors frameBytes target cs c).1 ∈ c :: cs ∧
            (scanDivisors frameBytes target cs c).1 ∣ frameBytes ∧
            (scanDivisors frameBytes target cs c).1 ≤ target := by
          by_cases hex : ∃ d ∈ cs, d ∣ frameBytes ∧ d ≤ target
          · obtain ⟨d, hd, hdd, hdle⟩ := hex
            obtain ⟨h₁, h₂, h₃⟩ := h.last d hd hdd hdle
            exact ⟨(hhead d hd).le.trans h₁, List.mem_cons_of_mem _ h₂, h₃⟩
          · push Not at hex
            rw [h.below_of_none hex]
            exact ⟨le_rfl, List.mem_cons_self, hdiv, hle⟩
        rintro d (_ | ⟨_, hd⟩) hdd hdle
        · exact hlast
        · exact ⟨(h.last d hd hdd hdle).1, hlast.2⟩
      · rintro d (_ | ⟨_, hd⟩) hdd hdlt
        · exact absurd hle (Nat.not_le.mpr hdlt)
        · obtain ⟨h₁, h₂, h₃⟩ := h.first d hd hdd hdlt
          exact ⟨h₁, List.mem_cons_of_mem _ h₂, h₃⟩
    · -- it is the first above the target, and everything behind it is larger
      have hdiv : c ∣ frameBytes := Nat.dvd_of_mod_eq_zero (not_not.mp hdvd)
      have hmin : ∀ d ∈ c :: cs, c ≤ d := by
        rintro d (_ | ⟨_, hd⟩)
        exacts [le_rfl, (hhead d hd).le]
      refine ⟨fun _ => rfl, fun d hd _ hdle => absurd ((hmin d hd).trans hdle) hle,
        fun hall => absurd (hall c List.mem_cons_self hdiv) hle, fun d hd _ _ => ?_⟩
      exact ⟨hmin d hd, List.mem_cons_self, hdiv, Nat.not_le.mp hle⟩

theorem candidates_sorted {unitBpp : ℕ} (hunit : 0 < unitBpp) (maxBpp : ℕ) :
    (candidates unitBpp maxBpp).Pairwise (· < ·) :=
  List.pairwise_lt_range.map _ fun _ _ h => Nat.mul_lt_mul_of_pos_right (Nat.succ_lt_succ h) hunit

theorem mem_candidates_iff {unitBpp maxBpp c : ℕ} (hunit : 0 < unitBpp) :
    c ∈ candidates unitBpp maxBpp ↔ 0 < c ∧ unitBpp ∣ c ∧ c ≤ maxBpp := by
  constructor
  · intro h
    obtain ⟨hdvd, hle⟩ := mem_candidates h
    obtain ⟨k, -, rfl⟩ := List.mem_map.mp h
    exact ⟨Nat.mul_pos (Nat.succ_pos k) hunit, hdvd, hle⟩
  · rintro ⟨hpos, ⟨k, rfl⟩, hle⟩
    have hk : 0 < k := Nat.pos_of_mul_pos_left hpos
    refine List.mem_map.mpr ⟨k - 1, List.mem_range.mpr ?_, ?_⟩
    · have := (Nat.le_div_iff_mul_le hunit).mpr (mul_comm unitBpp k ▸ hle)
      omega
    · rw [Nat.sub_add_cancel hk, mul_comm]

/-- A packet size the camera and the bus allow, of which the frame takes a whole number. -/
structure LegalSize (frameBytes unitBpp limit bpp : ℕ) : Prop where
  pos : 0 < bpp
  unit_dvd : unitBpp ∣ bpp
  le_limit : bpp ≤ limit
  dvd_frame : bpp ∣ frameBytes

/-- A frame in packets of this size takes at least the interval asked for. An interval of zero
asks for none. -/
def MeetsInterval (frameBytes frameInterval bpp : ℕ) : Prop :=
  bpp * frameInterval ≤ frameBytes * isoCycle100ns

instance (frameBytes frameInterval bpp : ℕ) : Decidable (MeetsInterval frameBytes frameInterval bpp) :=
  inferInstanceAs (Decidable (_ ≤ _))

/-- The largest legal size that meets the interval, or the smallest where none does. -/
structure BestSize (frameBytes frameInterval unitBpp limit bpp : ℕ) : Prop where
  legal : LegalSize frameBytes unitBpp limit bpp
  largest : MeetsInterval frameBytes frameInterval bpp → ∀ c, LegalSize frameBytes unitBpp limit c →
    MeetsInterval frameBytes frameInterval c → c ≤ bpp
  smallest : ¬MeetsInterval frameBytes frameInterval bpp → ∀ c, LegalSize frameBytes unitBpp limit c →
    ¬MeetsInterval frameBytes frameInterval c ∧ bpp ≤ c

theorem speedCap_cases (unitBpp maxBpp speedMaxBpp : ℕ) :
    (speedCap unitBpp maxBpp speedMaxBpp = .error statusInvalidParameter ∧
        ∀ c, 0 < c → unitBpp ∣ c → ¬c ≤ min maxBpp speedMaxBpp) ∨
      ∃ cap, speedCap unitBpp maxBpp speedMaxBpp = .ok cap ∧ cap ≤ maxBpp ∧
        ∀ c, unitBpp ∣ c → (c ≤ cap ↔ c ≤ min maxBpp speedMaxBpp) := by
  have hfloor : ∀ c, unitBpp ∣ c → (c ≤ speedMaxBpp / unitBpp * unitBpp ↔ c ≤ speedMaxBpp) := by
    rintro c ⟨k, rfl⟩
    refine ⟨fun h => h.trans (Nat.div_mul_le_self _ _), fun h => ?_⟩
    rcases Nat.eq_zero_or_pos unitBpp with rfl | hunit
    · simp
    · rw [mul_comm unitBpp k] at h ⊢
      exact Nat.mul_le_mul_right _ ((Nat.le_div_iff_mul_le hunit).mpr h)
  have hle := Nat.div_mul_le_self speedMaxBpp unitBpp
  unfold speedCap
  split_ifs with hlt hzero
  · refine .inl ⟨rfl, fun c hc hd h => ?_⟩
    have := (hfloor c hd).mpr (h.trans (min_le_right _ _))
    omega
  · refine .inr ⟨_, rfl, by omega, fun c hd => ?_⟩
    rw [hfloor c hd]
    omega
  · exact .inr ⟨_, rfl, le_rfl, fun c _ => by omega⟩

theorem le_targetBpp_iff (frameBytes frameInterval : ℕ) {unitBpp cap c : ℕ} (hunit : 0 < unitBpp)
    (hpos : 0 < c) (hdvd : unitBpp ∣ c) (hle : c ≤ cap) :
    c ≤ targetBpp unitBpp cap (rawBpp frameBytes frameInterval cap) ↔
      MeetsInterval frameBytes frameInterval c ∨
        c = unitBpp ∧ ∀ d, 0 < d → unitBpp ∣ d → ¬MeetsInterval frameBytes frameInterval d := by
  -- below the cap the raw size is exactly the largest that keeps the interval
  have hraw : ∀ d, d ≤ cap → (d ≤ rawBpp frameBytes frameInterval cap ↔
      MeetsInterval frameBytes frameInterval d) := by
    intro d hd
    unfold rawBpp MeetsInterval
    split_ifs with hi
    · rw [le_min_iff, and_iff_left hd, Nat.le_div_iff_mul_le (Nat.pos_of_ne_zero hi)]
    · rw [not_not.mp hi]
      simp [hd]
  have hfloor : ∀ d, unitBpp ∣ d → (d ≤ rawBpp frameBytes frameInterval cap / unitBpp * unitBpp ↔
      d ≤ rawBpp frameBytes frameInterval cap) := by
    rintro d ⟨k, rfl⟩
    rw [mul_comm, Nat.mul_le_mul_right_iff hunit, Nat.le_div_iff_mul_le hunit]
  have hucap : unitBpp ≤ cap := (Nat.le_of_dvd hpos hdvd).trans hle
  rw [targetBpp, le_min_iff, and_iff_left hle]
  split_ifs with hzero
  -- rounded down to nothing: the target is one unit, and no size keeps the interval
  · have hnone : ¬MeetsInterval frameBytes frameInterval unitBpp := by
      rw [← hraw _ hucap, ← hfloor _ dvd_rfl]
      omega
    have hno : ∀ d, 0 < d → unitBpp ∣ d → ¬MeetsInterval frameBytes frameInterval d := by
      intro d hd hud hm
      exact hnone ((Nat.mul_le_mul_right _ (Nat.le_of_dvd hd hud)).trans hm)
    refine ⟨fun h => .inr ⟨le_antisymm h (Nat.le_of_dvd hpos hdvd), hno⟩, ?_⟩
    rintro (h | ⟨rfl, -⟩)
    exacts [absurd h (hno c hpos hdvd), le_rfl]
  · rw [hfloor c hdvd, hraw c hle]
    refine ⟨.inl, ?_⟩
    rintro (h | ⟨rfl, hno⟩)
    · exact h
    · exact absurd ((hraw _ hle).mp ((hfloor _ dvd_rfl).mp (Nat.le_mul_of_pos_left _
        (Nat.pos_of_ne_zero fun h => hzero (by rw [h, Nat.zero_mul]))))) (hno _ hpos hdvd)

section
variable {frameBytes frameInterval unitBpp limit target : ℕ} {cs : List ℕ} {found : ℕ × ℕ}

theorem Scanned.best_below (h : Scanned frameBytes target cs 0 found)
    (hcs : ∀ c, c ∈ cs ∧ c ∣ frameBytes ↔ LegalSize frameBytes unitBpp limit c)
    (htarget : ∀ c, LegalSize frameBytes unitBpp limit c → (c ≤ target ↔
      MeetsInterval frameBytes frameInterval c ∨
        c = unitBpp ∧ ∀ d, 0 < d → unitBpp ∣ d → ¬MeetsInterval frameBytes frameInterval d))
    (hne : found.1 ≠ 0) : BestSize frameBytes frameInterval unitBpp limit found.1 := by
  obtain ⟨c, hc, hdvd, hle⟩ : ∃ c ∈ cs, c ∣ frameBytes ∧ c ≤ target := by
    by_contra hall
    push Not at hall
    exact hne (h.below_of_none hall)
  obtain ⟨-, hmem, hdiv, hfound⟩ := h.last c hc hdvd hle
  have hlegal := (hcs _).mp ⟨hmem, hdiv⟩
  refine ⟨hlegal, fun _ d hd hm => ?_, fun hno d hd => ?_⟩
  · obtain ⟨hdm, hdd⟩ := (hcs d).mpr hd
    exact (h.last d hdm hdd ((htarget d hd).mpr (.inl hm))).1
  · obtain ⟨heq, hnone⟩ := ((htarget _ hlegal).mp hfound).resolve_left hno
    exact ⟨hnone d hd.pos hd.unit_dvd, heq ▸ Nat.le_of_dvd hd.pos hd.unit_dvd⟩

theorem Scanned.target_lt (h : Scanned frameBytes target cs 0 found)
    (hcs : ∀ c, c ∈ cs ∧ c ∣ frameBytes ↔ LegalSize frameBytes unitBpp limit c)
    (hzero : found.1 = 0) {c : ℕ} (hc : LegalSize frameBytes unitBpp limit c) : target < c := by
  obtain ⟨hm, hd⟩ := (hcs c).mpr hc
  by_contra hle
  have := (h.last c hm hd (Nat.not_lt.mp hle)).1
  have := hc.pos
  omega

theorem Scanned.best_above (h : Scanned frameBytes target cs 0 found)
    (hcs : ∀ c, c ∈ cs ∧ c ∣ frameBytes ↔ LegalSize frameBytes unitBpp limit c)
    (hmeets : ∀ c, LegalSize frameBytes unitBpp limit c →
      MeetsInterval frameBytes frameInterval c → c ≤ target)
    (hzero : found.1 = 0) (hne : found.2 ≠ 0) :
    BestSize frameBytes frameInterval unitBpp limit found.2 := by
  obtain ⟨c, hc, hdvd, hlt⟩ : ∃ c ∈ cs, c ∣ frameBytes ∧ target < c := by
    by_contra hall
    push Not at hall
    exact hne (h.above_of_none hall)
  obtain ⟨-, hmem, hdiv, -⟩ := h.first c hc hdvd hlt
  have hnone : ∀ d, LegalSize frameBytes unitBpp limit d →
      ¬MeetsInterval frameBytes frameInterval d := fun d hd hm =>
    absurd (hmeets d hd hm) (Nat.not_le.mpr (h.target_lt hcs hzero hd))
  have hlegal := (hcs _).mp ⟨hmem, hdiv⟩
  refine ⟨hlegal, fun hm => absurd hm (hnone _ hlegal), fun _ d hd => ⟨hnone d hd, ?_⟩⟩
  obtain ⟨hdm, hdd⟩ := (hcs d).mpr hd
  exact (h.first d hdm hdd (h.target_lt hcs hzero hd)).1

end

theorem packetSize_best {frameBytes unitBpp : ℕ} (frameInterval maxBpp speedMaxBpp : ℕ)
    (hframe : 0 < frameBytes) (hunit : 0 < unitBpp) :
    match packetSize frameBytes frameInterval unitBpp maxBpp speedMaxBpp with
    | .ok bpp => BestSize frameBytes frameInterval unitBpp (min maxBpp speedMaxBpp) bpp
    | .error _ => ∀ c, ¬LegalSize frameBytes unitBpp (min maxBpp speedMaxBpp) c := by
  obtain ⟨hcap, hnone⟩ | ⟨cap, hcap, -, hlimit⟩ := speedCap_cases unitBpp maxBpp speedMaxBpp
  · rw [packetSize, hcap]
    exact fun c hc => hnone c hc.pos hc.unit_dvd hc.le_limit
  · have hmem : ∀ c, c ∈ candidates unitBpp cap ∧ c ∣ frameBytes ↔
        LegalSize frameBytes unitBpp (min maxBpp speedMaxBpp) c := by
      intro c
      rw [mem_candidates_iff hunit]
      constructor
      · rintro ⟨⟨hpos, hdvd, hle⟩, hdiv⟩
        exact ⟨hpos, hdvd, (hlimit c hdvd).mp hle, hdiv⟩
      · exact fun h => ⟨⟨h.pos, h.unit_dvd, (hlimit c h.unit_dvd).mpr h.le_limit⟩, h.dvd_frame⟩
    have htarget := fun c (h : LegalSize frameBytes unitBpp (min maxBpp speedMaxBpp) c) =>
      le_targetBpp_iff frameBytes frameInterval hunit h.pos h.unit_dvd
        ((hlimit c h.unit_dvd).mpr h.le_limit)
    have hquot : ∀ {bpp}, LegalSize frameBytes unitBpp (min maxBpp speedMaxBpp) bpp →
        ¬frameBytes / bpp = 0 := fun h =>
      (Nat.div_pos (Nat.le_of_dvd hframe h.dvd_frame) h.pos).ne'
    rw [packetSize, hcap]
    simp only [bind, Except.bind]
    have hscan := scanDivisors_scanned frameBytes
      (targetBpp unitBpp cap (rawBpp frameBytes frameInterval cap)) (candidates_sorted hunit cap) 0
    generalize scanDivisors frameBytes _ (candidates unitBpp cap) 0 = found at hscan
    -- a divisor at or below the target is preferred, else the first above it is taken
    by_cases hbelow : found.1 = 0
    · rw [if_neg (not_not.mpr hbelow)]
      by_cases habove : found.2 = 0
      · rw [if_neg (not_not.mpr habove)]
        intro c hc
        obtain ⟨hm, hd⟩ := (hmem c).mpr hc
        have := (hscan.first c hm hd (hscan.target_lt hmem hbelow hc)).2.2.2
        omega
      · have hbest := hscan.best_above hmem (fun c hc hm => (htarget c hc).mpr (.inl hm)) hbelow habove
        rw [if_pos habove]
        rw [if_neg (hquot hbest.legal)]
        exact hbest
    · have hbest := hscan.best_below hmem htarget hbelow
      rw [if_pos hbelow]
      rw [if_neg (hquot hbest.legal)]
      exact hbest

theorem configureFormat7_ok {σ : Type} {port : RegisterPort σ} {mode : VideoMode} {stream : Stream}
    {maxSpeedCode : ℕ} {s : σ} {p : Packetisation}
    (h : (configureFormat7 port mode stream maxSpeedCode s).1 = .ok p) :
    0 < stream.imageSize ∧ ∃ packetPara,
      port.Yields (mode.format7CsrOffset + f7PacketParaInq) packetPara ∧ 0 < hi16 packetPara ∧
        packetSize stream.imageSize stream.frameInterval (hi16 packetPara) (lo16 packetPara)
          (maxIsochPayload maxSpeedCode) = .ok p.bytesPerPacket ∧
        p.packetsPerFrame = stream.imageSize / p.bytesPerPacket := by
  unfold configureFormat7 at h
  dsimp only at h
  split_ifs at h with hzero
  · cases h
  obtain ⟨-, -, h⟩ := Routine.ok_of_bind h
  obtain ⟨-, -, h⟩ := Routine.ok_of_bind h
  obtain ⟨-, -, h⟩ := Routine.ok_of_bind h
  obtain ⟨-, -, h⟩ := Routine.ok_of_bind h
  obtain ⟨packetPara, hread, h⟩ := Routine.ok_of_bind h
  split_ifs at h with hpara
  · cases h
  obtain ⟨bpp, hbpp, h⟩ := Routine.ok_of_bind h
  obtain ⟨-, -, h⟩ := Routine.ok_of_bind h
  cases h
  refine ⟨Nat.pos_of_ne_zero hzero, packetPara, ⟨_, hread⟩, by omega, ?_, rfl⟩
  cases hsize : packetSize stream.imageSize stream.frameInterval (hi16 packetPara)
      (lo16 packetPara) (maxIsochPayload maxSpeedCode) with
  | error e =>
    rw [hsize] at hbpp
    cases hbpp
  | ok bpp' =>
    rw [hsize] at hbpp
    cases hbpp
    rfl

/-- 640x480 in MONO8 from the first mode of `oneMode`, at 30 fps. -/
def vgaStream : Stream :=
  ⟨some ⟨7, 0, pixMono8, 640, 480, 640, 480, true, 4, 4, 0xa00, 0, 93750, 48000000⟩, 640, 480, 307200,
    333333⟩

end Dcam
end Photonic

import Photonic.Engine.State
import Photonic.Lib.Tiling

namespace Photonic

def pageSize : ℕ := 4096

def captureMaxChunkBytes : ℕ := 1024 * 1024

def captureMaxChunks : ℕ := 8

/-- `ADDRESS_AND_SIZE_TO_SPAN_PAGES`, which `IoAllocateMdl` sizes an MDL with. -/
def spanPages (address size : ℕ) : ℕ := (address % pageSize + size + (pageSize - 1)) / pageSize

def hostLimit (maxDmaBufferSize : ℕ) : ℕ :=
  if maxDmaBufferSize = 0 then captureMaxChunkBytes else maxDmaBufferSize

/-- The limit chunks are held to, with a page of headroom under a reported one. -/
def maxBufferBytes (maxDmaBufferSize : ℕ) : ℕ :=
  if maxDmaBufferSize = 0 then captureMaxChunkBytes
  else if pageSize < maxDmaBufferSize then maxDmaBufferSize - pageSize
  else maxDmaBufferSize

/-- `ChunkBytes` and `ChunkCount`, with the pages each of `Frames[i].ChunkMdls` can hold. -/
structure Chunking where
  chunkBytes : ℕ
  chunkCount : ℕ
  chunkMdls : ℕ → ℕ → Option ℕ

def chunkGeometry (frameBytes bytesPerPacket maxBytes : ℕ) : Except NtStatus (ℕ × ℕ) :=
  if maxBytes < frameBytes then
    let chunkBytes := maxBytes % 2 ^ 32 / bytesPerPacket * bytesPerPacket
    if chunkBytes = 0 then .error statusInvalidParameter
    else
      let chunkCount := (frameBytes + chunkBytes - 1) % 2 ^ 32 / chunkBytes
      if captureMaxChunks < chunkCount then .error statusInvalidParameter
      else .ok (chunkBytes, chunkCount)
  else .ok (frameBytes, 1)

/-- `PhotonicCapturePoolSetupChunks`, where `alloc i chunk` says whether `IoAllocateMdl` has
memory for that MDL. -/
def setupChunks (frameBytes bytesPerPacket maxDmaBufferSize : ℕ) (alloc : ℕ → ℕ → Bool) :
    Except NtStatus Chunking := do
  let (chunkBytes, chunkCount) ←
    chunkGeometry frameBytes bytesPerPacket (maxBufferBytes maxDmaBufferSize)
  if chunkCount ≤ 1 then .ok ⟨chunkBytes, chunkCount, fun _ _ => none⟩
  else if (List.range captureFrameCount).all fun i => (List.range chunkCount).all (alloc i) then
    .ok ⟨chunkBytes, chunkCount, fun i chunk =>
      if i < captureFrameCount ∧ chunk < chunkCount then some (spanPages (pageSize - 1) chunkBytes)
      else none⟩
  else .error statusInsufficientResources

/-- What a descriptor views: the consumer's MDL, or a slice of it through `ChunkMdls[chunk]`. -/
inductive ChunkMdl
  | whole
  | slice (chunk offset length : ℕ)
  deriving DecidableEq, Repr

/-- `ISOCH_DESCRIPTOR` as it is primed. -/
structure IsochDescriptor where
  mdl : ChunkMdl
  length : ℕ
  maxBytesPerFrame : ℕ
  tag : ℕ
  synchOnSy : Bool
  synch : ℕ
  callback : Bool
  deriving DecidableEq, Repr

/-- Where in the frame a descriptor begins. -/
def IsochDescriptor.offset (d : IsochDescriptor) : ℕ :=
  match d.mdl with
  | .whole => 0
  | .slice _ offset _ => offset

def primeFrom (c : Chunking) (frameBytes bytesPerPacket : ℕ) : ℕ → ℕ → ℕ → List IsochDescriptor
  | 0, _, _ => []
  | n + 1, chunk, offset =>
    let length := min ((frameBytes + 2 ^ 32 - offset) % 2 ^ 32) c.chunkBytes
    { mdl := if 1 < c.chunkCount then .slice chunk offset length else .whole
      length := length
      maxBytesPerFrame := bytesPerPacket
      tag := 0
      synchOnSy := chunk = 0
      synch := if chunk = 0 then 1 else 0
      callback := chunk = c.chunkCount - 1 } ::
      primeFrom c frameBytes bytesPerPacket n (chunk + 1) ((offset + length) % 2 ^ 32)

/-- The chain `PhotonicCapturePumpPrime` builds. -/
def prime (c : Chunking) (frameBytes bytesPerPacket : ℕ) : List IsochDescriptor :=
  primeFrom c frameBytes bytesPerPacket c.chunkCount 0 0

/-- Chunks of whole packets that are just enough for the frame. -/
structure Cuts (frameBytes bytesPerPacket maxBytes chunkBytes chunkCount : ℕ) : Prop where
  chunk_pos : 0 < chunkBytes
  chunk_le : chunkBytes ≤ maxBytes
  chunk_dvd : bytesPerPacket ∣ chunkBytes
  count_le : chunkCount ≤ captureMaxChunks
  enough : frameBytes ≤ chunkCount * chunkBytes
  least : ∀ n < chunkCount, n * chunkBytes < frameBytes

/-- A frame of whole packets is cut, unless a packet is above the limit or the largest chunks
are too many. -/
theorem chunkGeometry_spec {frameBytes bytesPerPacket : ℕ} (maxBytes : ℕ) (hpacket : 0 < bytesPerPacket)
    (hframe : 0 < frameBytes) (hdvd : bytesPerPacket ∣ frameBytes) (hcap : frameBytes < 2 ^ 31) :
    match chunkGeometry frameBytes bytesPerPacket maxBytes with
    | .ok (chunkBytes, chunkCount) => Cuts frameBytes bytesPerPacket maxBytes chunkBytes chunkCount
    | .error _ => maxBytes < bytesPerPacket ∨
        captureMaxChunks * (maxBytes / bytesPerPacket * bytesPerPacket) < frameBytes := by
  unfold chunkGeometry
  by_cases hlimit : maxBytes < frameBytes
  · rw [if_pos hlimit, Nat.mod_eq_of_lt (show maxBytes < 2 ^ 32 by omega)]
    generalize hchunk : maxBytes / bytesPerPacket * bytesPerPacket = chunkBytes
    have hle : chunkBytes ≤ maxBytes := hchunk ▸ Nat.div_mul_le_self _ _
    by_cases hzero : chunkBytes = 0
    · simp only [hzero, if_true]
      left
      rw [← hchunk, Nat.mul_eq_zero] at hzero
      exact (Nat.div_eq_zero_iff_lt hpacket).mp (hzero.resolve_right hpacket.ne')
    · have hpos : 0 < chunkBytes := Nat.pos_of_ne_zero hzero
      dsimp only
      rw [if_neg hzero, Nat.mod_eq_of_lt (show frameBytes + chunkBytes - 1 < 2 ^ 32 by omega)]
      -- the count is the quotient rounded up
      have hceil : ∀ n, n < (frameBytes + chunkBytes - 1) / chunkBytes ↔
          n * chunkBytes < frameBytes := by
        intro n
        rw [Nat.lt_div_iff_mul_lt hpos]
        omega
      by_cases hmany : captureMaxChunks < (frameBytes + chunkBytes - 1) / chunkBytes
      · simp only [hmany, if_true]
        exact .inr ((hceil _).mp hmany)
      · simp only [hmany, if_false]
        refine ⟨hpos, hle, hchunk ▸ Nat.dvd_mul_left _ _, Nat.not_lt.mp hmany, ?_,
          fun n hn => (hceil n).mp hn⟩
        exact Nat.not_lt.mp fun h => absurd ((hceil _).mpr h) (Nat.lt_irrefl _)
  · rw [if_neg hlimit]
    refine ⟨hframe, Nat.not_lt.mp hlimit, hdvd, by decide, by omega, fun n hn => ?_⟩
    obtain rfl : n = 0 := by omega
    omega

section
variable {frameBytes bytesPerPacket maxBytes : ℕ} {c : Chunking}

theorem primeFrom_tiles (h : Cuts frameBytes bytesPerPacket maxBytes c.chunkBytes c.chunkCount)
    (hcap : frameBytes < 2 ^ 31) {n chunk offset : ℕ} (hn : chunk + n = c.chunkCount)
    (hoffset : offset = min (chunk * c.chunkBytes) frameBytes) :
    Tiles IsochDescriptor.offset IsochDescriptor.length offset
      (primeFrom c frameBytes bytesPerPacket n chunk offset) frameBytes := by
  induction n generalizing chunk offset with
  | zero =>
    have := h.enough
    rw [← hn, Nat.add_zero] at this
    show offset = frameBytes
    omega
  | succ n ih =>
    have hchunk := h.least chunk (by omega)
    have hpos := h.chunk_pos
    have hlength : (frameBytes + 2 ^ 32 - offset) % 2 ^ 32 = frameBytes - offset := by omega
    have hnext : (offset + min (frameBytes - offset) c.chunkBytes) % 2 ^ 32 =
        offset + min (frameBytes - offset) c.chunkBytes := by omega
    unfold primeFrom
    simp only [hlength, hnext]
    refine ⟨?_, ?_, ih (by omega) ?_⟩
    · unfold IsochDescriptor.offset
      by_cases hc : 1 < c.chunkCount
      · simp only [hc, if_true]
      · have hzero : chunk = 0 := by omega
        simp only [hc, if_false]
        rw [hoffset, hzero, Nat.zero_mul, Nat.zero_min]
    · show 0 < min (frameBytes - offset) c.chunkBytes
      omega
    · show offset + min (frameBytes - offset) c.chunkBytes =
        min ((chunk + 1) * c.chunkBytes) frameBytes
      rw [Nat.succ_mul]
      omega

theorem primeFrom_length (hpackets : bytesPerPacket ∣ c.chunkBytes)
    (hframe : bytesPerPacket ∣ frameBytes) {n chunk offset : ℕ} (hoffset : bytesPerPacket ∣ offset)
    (hle : offset ≤ frameBytes) (hcap : frameBytes < 2 ^ 31) {d : IsochDescriptor}
    (hd : d ∈ primeFrom c frameBytes bytesPerPacket n chunk offset) :
    d.length ≤ c.chunkBytes ∧ bytesPerPacket ∣ d.length := by
  induction n generalizing chunk offset with
  | zero => cases hd
  | succ n ih =>
    have hlength : (frameBytes + 2 ^ 32 - offset) % 2 ^ 32 = frameBytes - offset := by omega
    have hnext : (offset + min (frameBytes - offset) c.chunkBytes) % 2 ^ 32 =
        offset + min (frameBytes - offset) c.chunkBytes := by omega
    have hdvd : bytesPerPacket ∣ min (frameBytes - offset) c.chunkBytes := by
      rcases min_choice (frameBytes - offset) c.chunkBytes with he | he <;> rw [he]
      exacts [Nat.dvd_sub hframe hoffset, hpackets]
    unfold primeFrom at hd
    simp only [hlength, hnext] at hd
    obtain rfl | hd := List.mem_cons.mp hd
    · exact ⟨min_le_right _ _, hdvd⟩
    · exact ih (Nat.dvd_add hoffset hdvd) (by omega) hd

theorem primeFrom_place {n chunk offset i : ℕ} {d : IsochDescriptor}
    (hd : (primeFrom c frameBytes bytesPerPacket n chunk offset)[i]? = some d) :
    i < n ∧ d.synchOnSy = decide (chunk + i = 0) ∧
      d.callback = decide (chunk + i = c.chunkCount - 1) ∧
      (d.mdl = .whole ∧ c.chunkCount ≤ 1 ∨
        d.mdl = .slice (chunk + i) d.offset d.length ∧ 1 < c.chunkCount) := by
  induction n generalizing chunk offset i with
  | zero => cases hd
  | succ n ih =>
    unfold primeFrom at hd
    cases i with
    | zero =>
      obtain rfl := Option.some.inj hd
      refine ⟨Nat.succ_pos n, rfl, rfl, ?_⟩
      unfold IsochDescriptor.offset
      by_cases hc : 1 < c.chunkCount
      · simp [hc]
      · simp [hc, Nat.not_lt.mp hc]
    | succ i =>
      obtain ⟨hi, hsynch, hcallback, hmdl⟩ := ih hd
      rw [Nat.add_right_comm, Nat.add_assoc] at hsynch hcallback hmdl
      exact ⟨Nat.succ_lt_succ hi, hsynch, hcallback, hmdl⟩

theorem primeFrom_count {n chunk offset : ℕ} :
    (primeFrom c frameBytes bytesPerPacket n chunk offset).length = n := by
  induction n generalizing chunk offset with
  | zero => rfl
  | succ n ih => rw [primeFrom, List.length_cons, ih]

end

theorem spanPages_le {address size limit : ℕ} (h : size + pageSize ≤ limit) :
    spanPages address size ≤ (limit + (pageSize - 1)) / pageSize := by
  have hoffset : address % pageSize < pageSize := Nat.mod_lt _ (by decide)
  exact Nat.div_le_div_right (by omega)

theorem spanPages_le_last {address size chunkBytes : ℕ} (h : size ≤ chunkBytes) :
    spanPages address size ≤ spanPages (pageSize - 1) chunkBytes := by
  have hoffset : address % pageSize < pageSize := Nat.mod_lt _ (by decide)
  have hlast : (pageSize - 1) % pageSize = pageSize - 1 := by decide
  unfold spanPages
  rw [hlast]
  exact Nat.div_le_div_right (by omega)

/-- A chain that presents a frame to a host. -/
structure Presents (frameBytes bytesPerPacket maxDmaBufferSize : ℕ) (c : Chunking)
    (chain : List IsochDescriptor) : Prop where
  count : chain.length = c.chunkCount
  count_pos : 1 ≤ c.chunkCount
  count_le : c.chunkCount ≤ captureMaxChunks
  tiles : Tiles IsochDescriptor.offset IsochDescriptor.length 0 chain frameBytes
  once : ∀ n < frameBytes, ∃! d, d ∈ chain ∧ d.offset ≤ n ∧ n < d.offset + d.length
  packets : ∀ d ∈ chain, bytesPerPacket ∣ d.length
  length_le : ∀ d ∈ chain, d.length ≤ c.chunkBytes
  chunk_le : c.chunkBytes ≤ hostLimit maxDmaBufferSize
  pages : pageSize < maxDmaBufferSize → ∀ d ∈ chain, ∀ address,
    spanPages address d.length ≤ (maxDmaBufferSize + (pageSize - 1)) / pageSize
  slices : ∀ d ∈ chain, d.mdl = .whole ∧ c.chunkCount = 1 ∨
    ∃ chunk, d.mdl = .slice chunk d.offset d.length ∧ ∀ i < captureFrameCount, ∃ pages,
      c.chunkMdls i chunk = some pages ∧ ∀ address, spanPages address d.length ≤ pages
  synch : ∀ i d, chain[i]? = some d → (d.synchOnSy = true ↔ i = 0)
  callback : ∀ i d, chain[i]? = some d → (d.callback = true ↔ i + 1 = chain.length)

theorem maxBufferBytes_le (maxDmaBufferSize : ℕ) :
    maxBufferBytes maxDmaBufferSize ≤ hostLimit maxDmaBufferSize ∧
      (pageSize < maxDmaBufferSize →
        maxBufferBytes maxDmaBufferSize + pageSize = maxDmaBufferSize) := by
  unfold maxBufferBytes hostLimit
  split_ifs <;> omega

theorem prime_presents {frameBytes bytesPerPacket maxDmaBufferSize : ℕ} {c : Chunking}
    (hframe : 0 < frameBytes) (hdvd : bytesPerPacket ∣ frameBytes) (hcap : frameBytes < 2 ^ 31)
    (h : Cuts frameBytes bytesPerPacket (maxBufferBytes maxDmaBufferSize) c.chunkBytes c.chunkCount)
    (hmdls : 1 < c.chunkCount → ∀ i < captureFrameCount, ∀ chunk < c.chunkCount,
      c.chunkMdls i chunk = some (spanPages (pageSize - 1) c.chunkBytes)) :
    Presents frameBytes bytesPerPacket maxDmaBufferSize c (prime c frameBytes bytesPerPacket) := by
  obtain ⟨hlimit, hheadroom⟩ := maxBufferBytes_le maxDmaBufferSize
  have htiles := primeFrom_tiles h hcap (n := c.chunkCount) (Nat.zero_add _)
    (show 0 = min (0 * c.chunkBytes) frameBytes by omega)
  have hcount : (prime c frameBytes bytesPerPacket).length = c.chunkCount := primeFrom_count
  -- a frame has bytes, so there is a chunk
  have hpos : 1 ≤ c.chunkCount := by
    by_contra hzero
    have henough := h.enough
    rw [show c.chunkCount = 0 by omega, Nat.zero_mul] at henough
    omega
  have hlength : ∀ d ∈ prime c frameBytes bytesPerPacket,
      d.length ≤ c.chunkBytes ∧ bytesPerPacket ∣ d.length := fun d hd =>
    primeFrom_length h.chunk_dvd hdvd (dvd_zero _) (Nat.zero_le _) hcap hd
  refine ⟨hcount, hpos, h.count_le, htiles, fun n hn => htiles.existsUnique (Nat.zero_le n) hn,
    fun d hd => (hlength d hd).2, fun d hd => (hlength d hd).1, h.chunk_le.trans hlimit, ?_, ?_, ?_, ?_⟩
  · intro hlarge d hd address
    have hle := (hlength d hd).1
    have hchunk := h.chunk_le
    have hpage := hheadroom hlarge
    exact spanPages_le (by omega)
  · intro d hd
    obtain ⟨i, hi⟩ := List.getElem?_of_mem hd
    obtain ⟨hlt, -, -, ⟨hmdl, hone⟩ | ⟨hmdl, hmany⟩⟩ := primeFrom_place hi
    · exact .inl ⟨hmdl, by omega⟩
    · exact .inr ⟨_, hmdl, fun frame hframe => ⟨_, hmdls hmany frame hframe _ (by omega),
        fun address => spanPages_le_last (hlength d hd).1⟩⟩
  · intro i d hi
    obtain ⟨-, hsynch, -⟩ := primeFrom_place hi
    rw [hsynch, decide_eq_true_eq]
    omega
  · intro i d hi
    obtain ⟨hlt, -, hcallback, -⟩ := primeFrom_place hi
    rw [hcallback, decide_eq_true_eq, hcount]
    omega

theorem setupChunks_tiles {frameBytes bytesPerPacket maxDmaBufferSize : ℕ} {alloc : ℕ → ℕ → Bool}
    {c : Chunking} (hpacket : 0 < bytesPerPacket) (hframe : 0 < frameBytes)
    (hdvd : bytesPerPacket ∣ frameBytes) (hcap : frameBytes < 2 ^ 31)
    (h : setupChunks frameBytes bytesPerPacket maxDmaBufferSize alloc = .ok c) :
    Tiles IsochDescriptor.offset IsochDescriptor.length 0 (prime c frameBytes bytesPerPacket)
      frameBytes := by
  have hspec := chunkGeometry_spec (maxBufferBytes maxDmaBufferSize) hpacket hframe hdvd hcap
  unfold setupChunks at h
  cases hgeometry : chunkGeometry frameBytes bytesPerPacket (maxBufferBytes maxDmaBufferSize) with
  | error e =>
    rw [hgeometry] at h
    cases h
  | ok g =>
    rw [hgeometry] at h hspec
    have hcuts : Cuts _ _ _ g.1 g.2 := hspec
    have hc : c.chunkBytes = g.1 ∧ c.chunkCount = g.2 := by
      simp only [bind, Except.bind] at h
      split_ifs at h <;> cases h <;> exact ⟨rfl, rfl⟩
    rw [← hc.1, ← hc.2] at hcuts
    exact primeFrom_tiles hcuts hcap (Nat.zero_add _)
      (show 0 = min (0 * c.chunkBytes) frameBytes by omega)

/-- A frame of whole packets is presented in chunks the host takes. Setup fails only where a
packet is above the limit, the largest chunks are too many, or there is no memory. -/
theorem setupChunks_presents (bytesPerPacket packetsPerFrame maxDmaBufferSize : ℕ)
    (alloc : ℕ → ℕ → Bool) (hpacket : 0 < bytesPerPacket) (hpackets : 0 < packetsPerFrame)
    (hcap : bytesPerPacket * packetsPerFrame ≤ 256 * 1024 * 1024) :
    match setupChunks (bytesPerPacket * packetsPerFrame) bytesPerPacket maxDmaBufferSize alloc with
    | .ok c => Presents (bytesPerPacket * packetsPerFrame) bytesPerPacket maxDmaBufferSize c
        (prime c (bytesPerPacket * packetsPerFrame) bytesPerPacket)
    | .error _ => maxBufferBytes maxDmaBufferSize < bytesPerPacket ∨
        captureMaxChunks * (maxBufferBytes maxDmaBufferSize / bytesPerPacket * bytesPerPacket) <
          bytesPerPacket * packetsPerFrame ∨
        ∃ chunkBytes chunkCount, Cuts (bytesPerPacket * packetsPerFrame) bytesPerPacket
            (maxBufferBytes maxDmaBufferSize) chunkBytes chunkCount ∧
          ∃ i < captureFrameCount, ∃ chunk < chunkCount, alloc i chunk = false := by
  have hframe : 0 < bytesPerPacket * packetsPerFrame := Nat.mul_pos hpacket hpackets
  have hdvd : bytesPerPacket ∣ bytesPerPacket * packetsPerFrame := Nat.dvd_mul_right _ _
  generalize bytesPerPacket * packetsPerFrame = frameBytes at hframe hdvd hcap
  have hspec := chunkGeometry_spec (maxBufferBytes maxDmaBufferSize) hpacket hframe hdvd (by omega)
  unfold setupChunks
  cases hgeometry : chunkGeometry frameBytes bytesPerPacket (maxBufferBytes maxDmaBufferSize) with
  | error e =>
    rw [hgeometry] at hspec
    exact hspec.imp_right .inl
  | ok g =>
    rw [hgeometry] at hspec
    have hcuts : Cuts _ _ _ g.1 g.2 := hspec
    simp only [bind, Except.bind]
    -- one chunk is described by the buffer's own MDL, more need partial ones
    by_cases hone : g.2 ≤ 1
    · rw [if_pos hone]
      exact prime_presents hframe hdvd (by omega) hcuts fun hmany => absurd hone (by simpa using hmany)
    · rw [if_neg hone]
      split_ifs with halloc
      · refine prime_presents hframe hdvd (by omega) hcuts fun _ i hi chunk hchunk => ?_
        exact if_pos ⟨hi, hchunk⟩
      · simp only [List.all_eq_true, List.mem_range, not_forall, Bool.not_eq_true] at halloc
        obtain ⟨i, hi, chunk, hchunk, hnone⟩ := halloc
        exact .inr (.inr ⟨_, _, hcuts, i, hi, chunk, hchunk, hnone⟩)

/-- 1600x1200 in RGB24 under a limit of 2 MB takes three chunks. -/
theorem setupChunks_presents_uxga : ∃ c,
    setupChunks (3600 * 1600) 3600 0x200000 (fun _ _ => true) = .ok c ∧ c.chunkCount = 3 ∧
      Presents (3600 * 1600) 3600 0x200000 c (prime c (3600 * 1600) 3600) :=
  ⟨_, rfl, rfl, setupChunks_presents 3600 1600 0x200000 (fun _ _ => true) (by decide) (by decide)
    (by decide)⟩

end Photonic

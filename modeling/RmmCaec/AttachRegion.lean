import RmmCaec.EditedPages
import RmmCaec.Reserving

/-!
# What a successful attach maps

A successful attach should map every page of the master's region in the slave, and change
nothing else. Two things are not reported as errors: the helper that maps a page returns
without a change when the tables of the slave do not reach the level of a page there, and
a region at the very top of the address space has no pages for the loop. In all other
cases the whole region is mapped, and what lies outside is never changed.
-/
namespace RmmCaec

open RadixForest Outcome Runs

section
variable {s s' : State} {F F' : Tables} {R : Word × Word → Word → Prop}
  {places : List (Word × Word)} {rd ipa : Word}

theorem Mirrored.translate_kept (h : Holds s F) (hm : Mirrored s F R places s' F')
    (hrd : (s.granule rd).state = .RD) (ha : ipa.toNat < 2 ^ (s.rd rd).s2Ctx.ipaBits)
    (hout : PageLevel s (rd, ipa) → ¬ OnPage places rd ipa.toNat) :
    translate s' rd ipa = translate s rd ipa :=
  hm.editedOn.translate_kept h hm.wf.holds hrd (by rw [hm.same.state, hrd]) (by rw [hm.same.rd]) ha
    hout

theorem Mirrored.ramPage_kept (h : Holds s F) (hm : Mirrored s F R places s' F')
    (hrd : (s.granule rd).state = .RD)
    (hout : PageLevel s (rd, ipa) → ¬ OnPage places rd ipa.toNat) :
    ramPage s' rd ipa = ramPage s rd ipa := by
  unfold ramPage
  rw [hm.same.rd]
  by_cases hc : (granuleAligned ipa && decide (ipa.toNat < 2 ^ (s.rd rd).s2Ctx.ipaBits)) = true
  · rw [if_pos hc, if_pos hc]
    rw [Bool.and_eq_true, decide_eq_true_eq] at hc
    rw [hm.translate_kept h hrd hc.2 hout]
  · rw [if_neg hc, if_neg hc]

end

/-- The page at an offset of a region. -/
theorem pageAddr_offset {start offset : Word} (h : granuleAligned offset = true) :
    pageAddr start (offset.toNat / 4096) = start + offset := by
  rw [granuleAligned_iff] at h
  rw [pageAddr]
  congr 1
  refine BitVec.eq_of_toNat_eq ?_
  have := offset.isLt
  rw [BitVec.toNat_ofNat]
  simp only [granuleSize]
  omega

section
variable {m : MasterMem}

/-- A region that does not end at or after the top of the address space. -/
def MasterMem.Below (m : MasterMem) : Prop := m.ipaStart.toNat + m.mapSize.toNat < 2 ^ 64

theorem regionPages_of_below (h : m.Below) (hal : granuleAligned m.mapSize = true) :
    regionPages m = m.mapSize.toNat / 4096 := by
  rw [granuleAligned_iff] at hal
  unfold MasterMem.Below at h
  simp only [regionPages, rangePages, List.length_map, List.length_range,
    BitVec.toNat_add, granuleSize]
  rw [Nat.mod_eq_of_lt h]
  omega

/-- A region that is not below the top has a page that no translation reaches. -/
theorem MasterMem.exists_top (h : ¬ m.Below) (hal : granuleAligned m.ipaStart = true) :
    ∃ offset < m.mapSize, granuleAligned offset = true ∧
      (m.ipaStart + offset).toNat = 2 ^ 64 - 4096 := by
  unfold MasterMem.Below at h
  rw [granuleAligned_iff] at hal
  have h1 := m.ipaStart.isLt
  have h2 := m.mapSize.isLt
  have hoff : (BitVec.ofNat 64 (2 ^ 64 - 4096 - m.ipaStart.toNat)).toNat =
      2 ^ 64 - 4096 - m.ipaStart.toNat := by
    rw [BitVec.toNat_ofNat]
    omega
  refine ⟨BitVec.ofNat 64 (2 ^ 64 - 4096 - m.ipaStart.toNat), ?_, ?_, ?_⟩
  · rw [BitVec.lt_def, hoff]
    omega
  · rw [granuleAligned_iff, hoff]
    omega
  · rw [BitVec.toNat_add, hoff]
    omega

end

/-- Two pages of a range that does not exceed the address space are different. -/
theorem pageAddr_inj {start : Word} {j k : ℕ} (hal : granuleAligned start = true)
    (hj : j < 2 ^ 52) (hk : k < 2 ^ 52)
    (h : (pageAddr start j).toNat / 4096 = (pageAddr start k).toNat / 4096) : j = k := by
  rw [granuleAligned_iff] at hal
  have := start.isLt
  simp only [pageAddr, BitVec.toNat_add, BitVec.toNat_ofNat, granuleSize] at h
  omega

theorem pageAddr_aligned {start : Word} (k : ℕ) (hal : granuleAligned start = true) :
    granuleAligned (pageAddr start k) = true := by
  rw [granuleAligned_iff] at hal ⊢
  have := start.isLt
  simp only [pageAddr, BitVec.toNat_add, BitVec.toNat_ofNat, granuleSize]
  omega

theorem regionPages_le (m : MasterMem) : regionPages m ≤ 2 ^ 52 := by
  have := (m.ipaStart + m.mapSize).isLt
  simp only [regionPages, rangePages, List.length_map, List.length_range, granuleSize]
  omega

/-- A page of the slave with a page entry maps the master's page after the loop. -/
theorem Mirrored.attached {s s' : State} {F F' : Tables} {rdAddr : Word} {slave : SlaveMem}
    {m : MasterMem} (h : Holds s F)
    (hm : Mirrored s F (AttachPage s rdAddr slave m)
    (attachPlaces rdAddr slave (regionPages m)) s' F')
    (hal : granuleAligned slave.ipaStart = true) {k : ℕ} (hk : k < regionPages m)
    (hp : PageLevel s (rdAddr, pageAddr slave.ipaStart k)) :
    ramPage s' rdAddr (pageAddr slave.ipaStart k) =
      ramPage s slave.masterRdPa (pageAddr m.ipaStart k) := by
  have hle := regionPages_le m
  have hplace : (rdAddr, pageAddr slave.ipaStart k) ∈ attachPlaces rdAddr slave (regionPages m) :=
    List.mem_map.mpr ⟨k, List.mem_range.mpr hk, rfl⟩
  obtain ⟨t', n', i', hl', hh'⟩ := hm.heightAt (hp.heightAt h)
  obtain ⟨q, -, hsame, pa, ⟨j, hj, rfl, hpage⟩, he⟩ := hm.mapped _ hplace t' n' i' hl' hh'
  obtain rfl : j = k := pageAddr_inj hal (hj.trans_le hle) (hk.trans_le hle) hsame.2.symm
  obtain ⟨hrd, ha, -⟩ := hp
  have haligned := pageAddr_aligned j hal
  rw [hpage, ramPage_eq_some hm.wf.holds (by rw [hm.same.state, hrd]), hm.same.rd]
  refine ⟨haligned, ha, ?_⟩
  have hmaps := (maps_page_iff hm.wf.holds hl' hh' .RAM pa).mpr he
  rw [granuleAligned_iff] at haligned
  rw [haligned] at hmaps
  simpa using hmaps

/-- The property of a successful attach: each page of the region is the same RAM page in
master and slave, and every address of a realm off these pages of the slave keeps its
translation. -/
structure AttachMaps (s : State) (rdAddr : Word) (slave : SlaveMem) (m : MasterMem) (s' : State) :
    Prop where
  pages : ∀ offset < m.mapSize, granuleAligned offset = true →
    ∃ pa, ramPage s' slave.masterRdPa (m.ipaStart + offset) = some pa ∧
      ramPage s' rdAddr (slave.ipaStart + offset) = some pa
  others : ∀ rd ipa, (s.granule rd).state = .RD → ipa.toNat < 2 ^ (s.rd rd).s2Ctx.ipaBits →
    (∀ offset < m.mapSize, granuleAligned offset = true →
      ¬ SamePage (rdAddr, slave.ipaStart + offset) (rd, ipa)) →
    translate s' rd ipa = translate s rd ipa

/-- The region ends below the top of the address space, and each page of it reaches a page
entry of the slave or is mapped there already. -/
structure AttachReaches (s : State) (rdAddr : Word) (slave : SlaveMem) (m : MasterMem) : Prop where
  below : m.Below
  pages : ∀ offset < m.mapSize, granuleAligned offset = true →
    PageLevel s (rdAddr, slave.ipaStart + offset) ∨
      (ramPage s rdAddr (slave.ipaStart + offset)).isSome = true ∧
      ramPage s rdAddr (slave.ipaStart + offset) =
        ramPage s slave.masterRdPa (m.ipaStart + offset)

/-- The records that an attach works with span whole granules. -/
theorem attachEntry_aligned {plat : Platform} {s : State} (hs : Reachable plat s)
    {rdAddr x1 : Word} {slave : SlaveMem} {m : MasterMem}
    (h : attachEntry plat s rdAddr x1 = some (slave, m)) :
    granuleAligned slave.ipaStart = true ∧ granuleAligned m.ipaStart = true ∧
      granuleAligned m.mapSize = true := by
  simp only [attachEntry] at h
  split at h
  case isFalse => cases h
  case isTrue hc =>
    simp only [Bool.and_eq_true] at hc
    obtain ⟨⟨⟨⟨hapt, -⟩, -⟩, -⟩, hmapt⟩ := hc
    obtain ⟨midx, -, he⟩ := Option.map_eq_some_iff.mp h
    cases he
    have hrec := Reached.recordsOk hs _ (lockable_state hapt)
    have hmrec := Reached.recordsOk hs _ (lockable_state hmapt)
    exact ⟨hrec.startAligned (.SLAVE, _), hmrec.startAligned (.MASTER, midx),
      hmrec.sizeAligned (.MASTER, midx)⟩

theorem attachMaps_iff {plat : Platform} {s : State} (hs : Reachable plat s) {rdAddr x1 : Word}
    (hrd : (s.granule rdAddr).state = .RD) {s' : State} {res : RsiResult}
    (hcall : handleRsiCsmAttach plat s rdAddr x1 = .ok (s', res)) (hok : res.status = .SUCCESS) :
    ∃ slave m, attachEntry plat s rdAddr x1 = some (slave, m) ∧
      (AttachMaps s rdAddr slave m s' ↔ AttachReaches s rdAddr slave m) := by
  obtain ⟨F, hF⟩ := hs.wf
  rcases (handleRsiCsmAttach_sat hF hrd x1).of_ok hcall with
    ⟨-, hne⟩ | ⟨-, slave, m, F', hentry, hne, hmrd, hall, hm⟩
  · exact absurd hok hne
  refine ⟨slave, m, hentry, ?_⟩
  obtain ⟨hsal, hmal, hsize⟩ := attachEntry_aligned hs hentry
  have hmaster : ∀ ipa, ramPage s' slave.masterRdPa ipa = ramPage s slave.masterRdPa ipa := by
    refine fun ipa => hm.ramPage_other hF.holds hmrd fun q hq => ?_
    obtain ⟨k, -, rfl⟩ := List.mem_map.mp hq
    exact hne.symm
  -- the pages of the loop are the offsets of the region
  have hindex : m.Below → ∀ offset < m.mapSize, granuleAligned offset = true →
      offset.toNat / 4096 < regionPages m := by
    intro hb offset hoff hal
    rw [regionPages_of_below hb hsize]
    rw [granuleAligned_iff] at hsize hal
    rw [BitVec.lt_def] at hoff
    omega
  constructor
  · intro hmaps
    have hbelow : m.Below := by
      by_contra hc
      obtain ⟨offset, hoff, hal, htop⟩ := MasterMem.exists_top hc hmal
      obtain ⟨pa, hpa, -⟩ := hmaps.pages offset hoff hal
      rw [hmaster, ramPage_eq_some hF.holds hmrd, htop] at hpa
      have hbits := Nat.pow_le_pow_right (show 0 < 2 by decide) (hF.holds.ctx _ hmrd).bits_le_52
      omega
    refine ⟨hbelow, fun offset hoff hal => ?_⟩
    obtain ⟨pa, hpm, hps⟩ := hmaps.pages offset hoff hal
    by_cases hp : PageLevel s (rdAddr, slave.ipaStart + offset)
    · exact .inl hp
    · rw [hm.ramPage_kept hF.holds hrd fun hc => absurd hc hp] at hps
      rw [hmaster] at hpm
      exact .inr ⟨by rw [hps]; rfl, hps.trans hpm.symm⟩
  · intro hreach
    refine ⟨fun offset hoff hal => ?_, fun rd ipa hrd' ha hout => ?_⟩
    · have hk := hindex hreach.below offset hoff hal
      obtain ⟨pa, hpa⟩ := Option.isSome_iff_exists.mp (hall _ hk)
      rw [pageAddr_offset hal] at hpa
      refine ⟨pa, (hmaster _).trans hpa, ?_⟩
      by_cases hp : PageLevel s (rdAddr, slave.ipaStart + offset)
      · rw [← pageAddr_offset hal] at hp ⊢
        rw [hm.attached hF.holds hsal hk hp, pageAddr_offset hal, hpa]
      · obtain ⟨-, hsame⟩ := (hreach.pages offset hoff hal).resolve_left hp
        rw [hm.ramPage_kept hF.holds hrd fun hc => absurd hc hp, hsame, hpa]
    · refine hm.translate_kept hF.holds hrd' ha fun _ hon => ?_
      obtain ⟨q, hq, hq1, hq2⟩ := hon
      obtain ⟨k, hk, rfl⟩ := List.mem_map.mp hq
      rw [List.mem_range, regionPages_of_below hreach.below hsize] at hk
      have hsz := m.mapSize.isLt
      have hoff : (BitVec.ofNat 64 (k * granuleSize)).toNat = k * 4096 := by
        rw [BitVec.toNat_ofNat]
        simp only [granuleSize]
        omega
      refine hout (BitVec.ofNat 64 (k * granuleSize)) ?_ ?_ ⟨hq1, hq2⟩
      · rw [BitVec.lt_def, hoff]
        omega
      · rw [granuleAligned_iff, hoff]
        omega

/-- A region of one page has one page. -/
theorem offset_eq_zero {offset : Word} (h : offset < 0x1000#64)
    (hal : granuleAligned offset = true) : offset = 0#64 := by
  rw [BitVec.lt_def] at h
  rw [granuleAligned_iff] at hal
  refine BitVec.eq_of_toNat_eq ?_
  simp at h ⊢
  omega

/-- Two realms; the second has reserved a page of the first at the given address. -/
def demoMapped (there : Word) : List Act :=
  demoRealm 16 1 ++ demoPage 16 128 0x1000 ++ demoRealm 64 2 ++ demoShare 0x1000 0x1000 0 there

set_option maxRecDepth 100000 in
/-- A region of one page, with a page entry in the slave. -/
theorem attachMaps_page : ∃ s, Reachable demoPlat s ∧ ∃ s' res slave m,
    handleRsiCsmAttach demoPlat s (gr 64) 0 = .ok (s', res) ∧ res.status = .SUCCESS ∧
      attachEntry demoPlat s (gr 64) 0 = some (slave, m) ∧ m.mapSize = 0x1000#64 ∧
      AttachMaps s (gr 64) slave m s' := by
  have hrun : replayEnds (demoKeys [16, 64] [128] [0, 1, 5]) demoPlat (fun _ _ => true)
      (demoMapped 0x5000)
      (fun s => match handleRsiCsmAttach demoPlat s (gr 64) 0 with
        | .ok (_, res) => res.status == .SUCCESS && (s.granule (gr 64)).state == .RD &&
            (s.rd (gr 64)).s2Ctx.ipaBits == 32 &&
            (leafOf s.rtt (s.rd (gr 64)).s2Ctx 0x5000#64).2 == s2ttPageLevel &&
            (attachEntry demoPlat s (gr 64) 0).all (fun e => e.1.ipaStart == 0x5000#64 &&
              e.2.ipaStart == 0x1000#64 && e.2.mapSize == 0x1000#64)
        | .error _ => false) = true := by
    decide +kernel
  obtain ⟨s, hs, ht⟩ := replayEnds_reachable hrun
  revert ht
  cases hcall : handleRsiCsmAttach demoPlat s (gr 64) 0 with
  | error f => exact fun hc => by cases hc
  | ok p =>
    obtain ⟨s', res⟩ := p
    intro ht
    simp only [Bool.and_eq_true, beq_iff_eq, Option.all_eq_true] at ht
    obtain ⟨⟨⟨⟨hok, hrd⟩, hbits⟩, hlevel⟩, hentry⟩ := ht
    obtain ⟨slave, m, he, hiff⟩ := attachMaps_iff hs hrd hcall hok
    obtain ⟨⟨hslave, hm⟩, hsize⟩ := hentry _ he
    refine ⟨s, hs, s', res, slave, m, hcall, hok, he, hsize,
      hiff.mpr ⟨?_, fun offset hoff hal => ?_⟩⟩
    · simp only at hm hsize
      rw [MasterMem.Below, hm, hsize]
      decide
    · simp only at hslave hsize
      rw [hsize] at hoff
      rw [offset_eq_zero hoff hal, hslave]
      exact .inl ⟨hrd, by rw [hbits]; decide, hlevel⟩

set_option maxRecDepth 100000 in
/-- The tables of the slave end at level 2 where the region is reserved: the attach
succeeds and maps nothing. -/
theorem attach_block_unmapped : ∃ s, Reachable demoPlat s ∧ recRunning s (gr 70) = true ∧
    (s.recs (gr 70)).gRd = gr 64 ∧ ∃ s' res slave m,
      handleRsiCsmAttach demoPlat s (gr 64) 0 = .ok (s', res) ∧ res.status = .SUCCESS ∧
      attachEntry demoPlat s (gr 64) 0 = some (slave, m) ∧ m.mapSize = 0x1000#64 ∧
      translate s' (gr 64) slave.ipaStart = some (.unassigned .EMPTY) ∧
      ¬ AttachMaps s (gr 64) slave m s' := by
  have hrun : replayEnds (demoKeys [16, 64] [128] [0, 1, 5]) demoPlat (fun _ _ => true)
      (demoMapped 0x200000)
      (fun s => match handleRsiCsmAttach demoPlat s (gr 64) 0 with
        | .ok (s', res) => res.status == .SUCCESS && recRunning s (gr 70) &&
            (s.recs (gr 70)).gRd == gr 64 &&
            translate s' (gr 64) 0x200000 == some (.unassigned .EMPTY) &&
            match attachEntry demoPlat s (gr 64) 0 with
            | some e => e.1.ipaStart == 0x200000#64 && e.2.mapSize == 0x1000#64
            | none => false
        | .error _ => false) = true := by
    decide +kernel
  obtain ⟨s, hs, ht⟩ := replayEnds_reachable hrun
  revert ht
  cases hcall : handleRsiCsmAttach demoPlat s (gr 64) 0 with
  | error f => exact fun hc => by cases hc
  | ok p =>
    obtain ⟨s', res⟩ := p
    cases he : attachEntry demoPlat s (gr 64) 0 with
    | none => exact fun hc => by simp at hc
    | some e =>
      obtain ⟨slave, m⟩ := e
      intro ht
      simp only [Bool.and_eq_true, beq_iff_eq] at ht
      obtain ⟨⟨⟨⟨hok, hrun'⟩, hg⟩, htr⟩, hslave, hsize⟩ := ht
      refine ⟨s, hs, hrun', hg, s', res, slave, m, hcall, hok, he,
        hsize, by rw [hslave]; exact htr,
        fun hmaps => ?_⟩
      obtain ⟨pa, -, hpa⟩ := hmaps.pages 0#64 (by rw [hsize]; decide) (by decide)
      rw [BitVec.add_zero, hslave] at hpa
      unfold ramPage at hpa
      rw [show (0x200000#64 : Word) = 0x200000 from rfl, htr] at hpa
      simp at hpa

end RmmCaec

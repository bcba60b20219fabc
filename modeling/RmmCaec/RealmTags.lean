import RmmCaec.RegionIds
import RmmCaec.Draws

/-!
# The registries under any load

Both registries draw candidates from a counter and give up after a fixed number of
collisions. The candidates of one call differ in more values than a registry with
a free slot can hold, so a free slot is always filled. The tags and the realms in
the tag registry determine each other.
-/
namespace RmmCaec

open Draws Outcome Runs

/-- The counter with which the region registry generates identifiers. -/
def regionIdGen (c : Byte) : Byte × Byte := if c = 0#8 then (c + 2#8, c + 1#8) else (c + 1#8, c)

/-- The nonzero identifiers form one cycle. -/
theorem regionIdGen_cycle (c : Byte) :
    0 < (regionIdGen c).2.toNat ∧ (regionIdGen (regionIdGen c).1).2.toNat =
      (regionIdGen c).2.toNat % 255 + 1 := by
  revert c
  decide

theorem values_regionIdGen (n : ℕ) (c : Byte) :
    (values regionIdGen n c).map BitVec.toNat =
      (List.range n).map fun k => ((regionIdGen c).2.toNat - 1 + k) % 255 + 1 := by
  induction n generalizing c with
  | zero => rfl
  | succ n ih =>
    obtain ⟨hpos, hnext⟩ := regionIdGen_cycle c
    have hlt : (regionIdGen c).2.toNat < 256 := (regionIdGen c).2.isLt
    rw [values, List.map_cons, ih, List.range_succ_eq_map, List.map_cons, List.map_map]
    refine congrArg₂ List.cons ?_ (List.map_congr_left fun k _ => ?_)
    · omega
    · simp only [Function.comp_apply, Nat.succ_eq_add_one]
      rw [hnext]
      omega

/-- Up to 255 consecutive candidates are different. -/
theorem nodup_values_regionIdGen {n : ℕ} (hn : n ≤ 255) (c : Byte) :
    (values regionIdGen n c).Nodup := by
  refine List.Nodup.of_map BitVec.toNat ?_
  rw [values_regionIdGen]
  refine List.Nodup.map_on ?_ List.nodup_range
  intro a ha b hb heq
  rw [List.mem_range] at ha hb
  omega

namespace CsmIdRegistry

variable (r : CsmIdRegistry)

theorem next_gen : regionIdGen r.counter =
    ((csmRegionIdNext r).1.counter, (csmRegionIdNext r).2) := by
  unfold regionIdGen csmRegionIdNext
  split <;> rfl

theorem collides_congr {r r' : CsmIdRegistry} (h : r'.entries = r.entries) :
    csmRegionIdCollides r' = csmRegionIdCollides r := by
  funext id
  unfold csmRegionIdCollides
  rw [h]

theorem draw_eq (n : ℕ) : csmRegionIdDraw n r =
    draw csmRegionIdNext (csmRegionIdCollides r) n r := by
  have key : ∀ r', r'.entries = r.entries →
      csmRegionIdDraw n r' = draw csmRegionIdNext (csmRegionIdCollides r) n r' := by
    induction n with
    | zero => exact fun _ _ => rfl
    | succ n ih =>
      intro r' hr'
      have hent : (csmRegionIdNext r').1.entries = r.entries := (next_spec r').1.trans hr'
      rw [csmRegionIdDraw, draw]
      simp only [collides_congr hent, ih _ hent]
  exact key r rfl

/-- The slots in use. -/
def used : Finset ℕ := (Finset.range configMaxCsmRegionIds).filter fun i => (r.entries i).inUse

theorem card_used_lt {i : ℕ} (hi : i < configMaxCsmRegionIds)
    (hfree : (r.entries i).inUse = false) :
    r.used.card < configMaxCsmRegionIds := by
  have hss : r.used ⊂ Finset.range configMaxCsmRegionIds := by
    refine Finset.filter_ssubset.mpr ⟨i, Finset.mem_range.mpr hi, ?_⟩
    simp [hfree]
  simpa using Finset.card_lt_card hss

/-- Sixty-four attempts find an identifier while a slot is free. -/
theorem draw_isSome_of_free {i : ℕ} (hi : i < configMaxCsmRegionIds)
    (hfree : (r.entries i).inUse = false) :
    (csmRegionIdDraw configMaxCsmRegionIds r).2.isSome = true := by
  rw [draw_eq]
  refine draw_isSome (T := r.used.image fun j => (r.entries j).regionId) ?_ ?_
  · intro id hid
    obtain ⟨j, hj, hu, rfl⟩ := (collides_iff r id).mp hid
    exact Finset.mem_image_of_mem _ (by simp [used, hj, hu])
  · have hval : values csmRegionIdNext configMaxCsmRegionIds r =
        values regionIdGen configMaxCsmRegionIds r.counter := values_map next_gen _ _
    rw [hval, List.toFinset_card_of_nodup (nodup_values_regionIdGen (by decide) _), length_values]
    exact lt_of_le_of_lt Finset.card_image_le (r.card_used_lt hi hfree)

theorem assign_isSome_iff (owner : Word) :
    (csmRegionIdAssign r owner).2.isSome = true ↔
      ∃ i < configMaxCsmRegionIds, (r.entries i).inUse = false := by
  constructor
  · intro h
    obtain ⟨id, hid⟩ := Option.isSome_iff_exists.mp h
    obtain ⟨-, -, slot, hlt, hfree, -⟩ := assign_some (Prod.ext rfl hid)
    exact ⟨slot, hlt, hfree⟩
  · rintro ⟨i, hi, hfree⟩
    have hdraw := r.draw_isSome_of_free hi hfree
    unfold csmRegionIdAssign
    split
    · next hnone => simpa [hfree] using findFirst_none hnone hi
    · split
      · next hd => simp [hd] at hdraw
      · rfl

end CsmIdRegistry

/-- An identifier is assigned exactly when a slot is free. It is not zero and was not in
use, and afterwards it stands in a slot that was free, with every other entry kept. -/
theorem csmRegionIdAssign_total (r : CsmIdRegistry) (owner : Word) :
    ((csmRegionIdAssign r owner).2.isSome = true ↔
      ∃ i < configMaxCsmRegionIds, (r.entries i).inUse = false) ∧
    ∀ id, (csmRegionIdAssign r owner).2 = some id →
      id ≠ 0#8 ∧
      (∀ i < configMaxCsmRegionIds, (r.entries i).inUse = true →
      (r.entries i).regionId ≠ id) ∧
      ∃ slot < configMaxCsmRegionIds, (r.entries slot).inUse = false ∧
        (csmRegionIdAssign r owner).1.entries slot = ⟨owner, id, true⟩ ∧
        ∀ i, i ≠ slot → (csmRegionIdAssign r owner).1.entries i = r.entries i := by
  refine ⟨r.assign_isSome_iff owner, fun id hid => ?_⟩
  obtain ⟨h0, hnew, slot, hlt, hfree, hent⟩ := CsmIdRegistry.assign_some (Prod.ext rfl hid)
  refine ⟨h0, fun i hi hu heq => hnew ⟨i, hi, hu, heq⟩, slot, hlt, hfree, ?_,
    fun i hi => ?_⟩
  · rw [hent, Function.update_self]
  · rw [hent, Function.update_of_ne hi]

/-- `realm_tag_init`, which no code calls. -/
def realmTagInit (_ : TagRegistry) : TagRegistry := ⟨fun _ => default, 0, 1#8⟩

/-- `realm_tag_assign` with the tag that it reports on success. -/
def realmTagAssignOut (t : TagRegistry) (rdPa : Word) : TagRegistry × Option Byte :=
  if (findSlotByRd t rdPa).isSome then (t, none)
  else
    match findFirst configMaxRealms fun i => !(t.entries i).inUse with
    | none => (t, none)
    | some slot =>
      match realmTagDraw 16 t with
      | (t', none) => (t', none)
      | (t', some tag) =>
        ({ t' with entries := Function.update t'.entries slot ⟨rdPa, tag, true⟩ }, some tag)

theorem realmTagAssign_eq (t : TagRegistry) (rdPa : Word) :
    realmTagAssign t rdPa = (realmTagAssignOut t rdPa).1 := by
  unfold realmTagAssign realmTagAssignOut
  split
  · rfl
  · cases findFirst configMaxRealms fun i => !(t.entries i).inUse with
    | none => rfl
    | some slot => rcases realmTagDraw 16 t with ⟨t', _ | tag⟩ <;> rfl

/-- The position in the table of tags and the counter behind it. -/
def tagGen (g : ℕ × Byte) : (ℕ × Byte) × Byte :=
  match kDefaultTags[g.1]? with
  | some tag => ((g.1 + 1, g.2), if tag = 0#8 then 1#8 else tag)
  | none =>
    let candidate := 0xf0#8 ^^^ g.2
    ((g.1, g.2 + 1#8), if candidate = 0#8 then 1#8 else candidate)

/-- The tag that a value of the counter gives. -/
def counterTag (c : Byte) : Byte := if 0xf0#8 ^^^ c = 0#8 then 1#8 else 0xf0#8 ^^^ c

theorem counterTag_inj {a b : Byte} (ha : a ≠ 0xf0#8) (hb : b ≠ 0xf0#8)
    (h : counterTag a = counterTag b) : a = b := by
  unfold counterTag at h
  rw [if_neg (fun hc => ha (BitVec.xor_eq_zero_iff.mp hc).symm),
    if_neg (fun hc => hb (BitVec.xor_eq_zero_iff.mp hc).symm)] at h
  exact (BitVec.xor_right_inj _).mp h

/-- Once the table is consumed the counter runs through all of its values. -/
theorem values_tagGen (n : ℕ) {i : ℕ} (hi : kDefaultTags.length ≤ i) (c : Byte) :
    values tagGen n (i, c) = (List.range n).map fun k => counterTag (c + BitVec.ofNat 8 k) := by
  have hgen : ∀ c, tagGen (i, c) = ((i, c + 1#8), counterTag c) := by
    intro c
    rw [tagGen, List.getElem?_eq_none hi]
    rfl
  induction n generalizing c with
  | zero => rfl
  | succ n ih =>
    rw [values, hgen, ih, List.range_succ_eq_map, List.map_cons, List.map_map]
    refine congrArg₂ List.cons ?_ (List.map_congr_left fun k _ => ?_)
    · rw [BitVec.add_zero]
    · rw [Function.comp_apply, BitVec.add_assoc, Nat.succ_eq_add_one, Nat.add_comm k 1,
        BitVec.ofNat_add]

theorem card_values_counter {i : ℕ} (hi : kDefaultTags.length ≤ i) (c : Byte) :
    15 ≤ (values tagGen 16 (i, c)).toFinset.card := by
  set S : Finset Byte := (Finset.range 16).image fun k => c + BitVec.ofNat 8 k with hS
  have hcard : S.card = 16 := by
    rw [hS, Finset.card_image_of_injOn, Finset.card_range]
    intro a ha b hb heq
    simp only [Finset.coe_range, Set.mem_Iio] at ha hb
    have heq' := congrArg BitVec.toNat ((BitVec.add_right_inj c).mp heq)
    simp only [BitVec.toNat_ofNat] at heq'
    omega
  -- only the counters 0xf0 and 0xf1 give the same tag
  have hinj : Set.InjOn counterTag (S.erase 0xf0#8) := by
    intro a ha b hb
    exact counterTag_inj (Finset.ne_of_mem_erase ha) (Finset.ne_of_mem_erase hb)
  have hsub : (S.erase 0xf0#8).image counterTag ⊆ (values tagGen 16 (i, c)).toFinset := by
    intro x hx
    obtain ⟨d, hd, rfl⟩ := Finset.mem_image.mp hx
    obtain ⟨k, hk, rfl⟩ := Finset.mem_image.mp (Finset.mem_of_mem_erase hd)
    rw [List.mem_toFinset, values_tagGen _ hi]
    exact List.mem_map_of_mem (List.mem_range.mpr (Finset.mem_range.mp hk))
  have hle := Finset.card_le_card hsub
  rw [Finset.card_image_of_injOn hinj] at hle
  have herase := Finset.pred_card_le_card_erase (s := S) (a := 0xf0#8)
  omega

/-- While the table lasts the counter still has its first value. -/
theorem card_values_table : ∀ i < kDefaultTags.length, ∀ c ∈ [0#8, 1#8],
    10 ≤ (values tagGen 16 (i, c)).toFinset.card := by
  decide +kernel

namespace TagRegistry

/-- In-use tags are not zero, and tags and realms stand in one entry each. -/
structure Ok (t : TagRegistry) : Prop where
  nonzero : ∀ i < configMaxRealms, (t.entries i).inUse = true → (t.entries i).tag ≠ 0#8
  tag_inj : ∀ i < configMaxRealms, ∀ j < configMaxRealms, (t.entries i).inUse = true →
    (t.entries j).inUse = true → (t.entries i).tag = (t.entries j).tag → i = j
  rd_inj : ∀ i < configMaxRealms, ∀ j < configMaxRealms, (t.entries i).inUse = true →
    (t.entries j).inUse = true → (t.entries i).rdPa = (t.entries j).rdPa → i = j
  counter : t.nextIndex < kDefaultTags.length → t.counter ∈ [0#8, 1#8]

/-- The entries in use. -/
def used (t : TagRegistry) : Finset ℕ :=
  (Finset.range configMaxRealms).filter fun i => (t.entries i).inUse

variable {t : TagRegistry}

theorem generate_gen (t : TagRegistry) :
    tagGen (t.nextIndex, t.counter) = (((realmTagGenerateNext t).1.nextIndex,
      (realmTagGenerateNext t).1.counter), (realmTagGenerateNext t).2) := by
  unfold tagGen realmTagGenerateNext
  cases kDefaultTags[t.nextIndex]? <;> rfl

theorem generate_entries (t : TagRegistry) : (realmTagGenerateNext t).1.entries = t.entries := by
  unfold realmTagGenerateNext
  split <;> rfl

theorem generate_nonzero (t : TagRegistry) : (realmTagGenerateNext t).2 ≠ 0#8 := by
  unfold realmTagGenerateNext
  split
  · simp only
    split <;> simp_all
  · simp only
    split <;> simp_all

theorem generate_counter (h : t.nextIndex < kDefaultTags.length → t.counter ∈ [0#8, 1#8]) :
    (realmTagGenerateNext t).1.nextIndex < kDefaultTags.length →
      (realmTagGenerateNext t).1.counter ∈ [0#8, 1#8] := by
  unfold realmTagGenerateNext
  split
  · next hsome =>
    intro _
    exact h (List.getElem?_eq_some_iff.mp hsome).1
  · next hnone =>
    intro hlt
    exact absurd hlt (not_lt.mpr (List.getElem?_eq_none_iff.mp hnone))

theorem collides_congr {t' : TagRegistry} (h : t'.entries = t.entries) :
    tagCollides t' = tagCollides t := by
  funext tag
  unfold tagCollides findSlotByTag
  rw [h]

theorem draw_eq (n : ℕ) (t : TagRegistry) :
    realmTagDraw n t = draw realmTagGenerateNext (tagCollides t) n t := by
  have key : ∀ t', t'.entries = t.entries →
      realmTagDraw n t' = draw realmTagGenerateNext (tagCollides t) n t' := by
    induction n with
    | zero => exact fun _ _ => rfl
    | succ n ih =>
      intro t' ht'
      have hent := (generate_entries t').trans ht'
      rw [realmTagDraw, draw]
      simp only [collides_congr hent, ih _ hent]
  exact key t rfl

theorem findSlotByRd_isSome (t : TagRegistry) (rdPa : Word) :
    (findSlotByRd t rdPa).isSome = true ↔
      ∃ i < configMaxRealms, (t.entries i).inUse = true ∧ (t.entries i).rdPa = rdPa := by
  constructor
  · intro h
    obtain ⟨i, hi⟩ := Option.isSome_iff_exists.mp h
    obtain ⟨hlt, hp⟩ := findFirst_some hi
    exact ⟨i, hlt, by simpa using hp⟩
  · rintro ⟨i, hlt, hu, rfl⟩
    by_contra hnone
    have := findFirst_none (Option.not_isSome_iff_eq_none.mp hnone) hlt
    simp [hu] at this

theorem collides_iff (t : TagRegistry) (tag : Byte) : tagCollides t tag = true ↔
    ∃ i < configMaxRealms, (t.entries i).inUse = true ∧ (t.entries i).tag = tag := by
  constructor
  · intro h
    obtain ⟨i, hi⟩ := Option.isSome_iff_exists.mp h
    obtain ⟨hlt, hp⟩ := findFirst_some hi
    exact ⟨i, hlt, by simpa using hp⟩
  · rintro ⟨i, hlt, hu, rfl⟩
    by_contra hnone
    have := findFirst_none (Option.not_isSome_iff_eq_none.mp hnone) hlt
    simp [hu] at this

/-- Sixteen attempts find a tag while an entry is free. -/
theorem Ok.draw_isSome (h : t.Ok) (hfree : t.used.card < configMaxRealms) :
    (realmTagDraw 16 t).2.isSome = true := by
  rw [draw_eq]
  refine Draws.draw_isSome (T := t.used.image fun j => (t.entries j).tag) ?_ ?_
  · intro tag htag
    obtain ⟨j, hj, hu, rfl⟩ := (collides_iff t tag).mp htag
    exact Finset.mem_image_of_mem _ (by simp [used, hj, hu])
  · have hval : values realmTagGenerateNext 16 t = values tagGen 16 (t.nextIndex, t.counter) :=
      values_map (f := fun t : TagRegistry => (t.nextIndex, t.counter)) generate_gen _ _
    have hten : 10 ≤ (values tagGen 16 (t.nextIndex, t.counter)).toFinset.card := by
      by_cases hi : t.nextIndex < kDefaultTags.length
      · exact card_values_table _ hi _ (h.counter hi)
      · exact le_trans (by decide) (card_values_counter (not_lt.mp hi) _)
    rw [hval]
    exact lt_of_lt_of_le (lt_of_le_of_lt Finset.card_image_le hfree) hten

/-- What an assignment does: nothing, draws without a result, or a new entry with a tag
that is not zero and not in use. -/
theorem assign_cases (t : TagRegistry) (rdPa : Word) :
    ((realmTagAssignOut t rdPa).2 = none ∧ (realmTagAssignOut t rdPa).1.entries = t.entries) ∨
    ∃ slot tag, slot < configMaxRealms ∧ (t.entries slot).inUse = false ∧ tag ≠ 0#8 ∧
      (∀ i < configMaxRealms, (t.entries i).inUse = true → (t.entries i).tag ≠ tag) ∧
      (∀ i < configMaxRealms, (t.entries i).inUse = true → (t.entries i).rdPa ≠ rdPa) ∧
      (realmTagAssignOut t rdPa).2 = some tag ∧
      (realmTagAssignOut t rdPa).1.entries =
        Function.update t.entries slot ⟨rdPa, tag, true⟩ := by
  have hent : (realmTagDraw 16 t).1.entries = t.entries := by
    rw [draw_eq]
    exact draw_keeps generate_entries 16 t
  unfold realmTagAssignOut
  split
  · exact .inl ⟨rfl, rfl⟩
  · next hrd =>
    cases hslot : findFirst configMaxRealms fun i => !(t.entries i).inUse with
    | none => exact .inl ⟨rfl, rfl⟩
    | some slot =>
      obtain ⟨hlt, hfree⟩ := findFirst_some hslot
      rcases hdraw : realmTagDraw 16 t with ⟨t', _ | tag⟩
      · rw [hdraw] at hent
        exact .inl ⟨rfl, hent⟩
      · rw [hdraw] at hent
        rw [draw_eq] at hdraw
        obtain ⟨hnew, hval⟩ := free_of_draw_some (congrArg Prod.snd hdraw)
        refine .inr ⟨slot, tag, hlt, by simpa using hfree, ?_, fun i hi hu heq => ?_,
          fun i hi hu heq => hrd ((findSlotByRd_isSome t rdPa).mpr ⟨i, hi, hu, heq⟩), rfl, ?_⟩
        · exact values_all (P := fun tag => tag ≠ 0#8) generate_nonzero 16 t tag hval
        · have hcol := (collides_iff t tag).mpr ⟨i, hi, hu, heq⟩
          rw [hnew] at hcol
          cases hcol
        · exact congrArg (Function.update · slot _) hent

theorem assign_counter (h : t.nextIndex < kDefaultTags.length → t.counter ∈ [0#8, 1#8])
    (rdPa : Word) : (realmTagAssignOut t rdPa).1.nextIndex < kDefaultTags.length →
      (realmTagAssignOut t rdPa).1.counter ∈ [0#8, 1#8] := by
  have hdraw : (realmTagDraw 16 t).1.nextIndex < kDefaultTags.length →
      (realmTagDraw 16 t).1.counter ∈ [0#8, 1#8] := by
    rw [draw_eq]
    exact draw_inv (I := fun t : TagRegistry => t.nextIndex < kDefaultTags.length →
      t.counter ∈ [0#8, 1#8])
      (fun t ht => generate_counter ht) 16 h
  unfold realmTagAssignOut
  split
  · exact h
  · cases findFirst configMaxRealms fun i => !(t.entries i).inUse with
    | none => exact h
    | some slot =>
      revert hdraw
      rcases realmTagDraw 16 t with ⟨t', _ | tag⟩ <;> exact id

/-- The registry with one more entry. -/
theorem Ok.insert {t' : TagRegistry} (h : t.Ok) {slot : ℕ} {rdPa : Word} {tag : Byte}
    (hzero : tag ≠ 0#8)
    (htag : ∀ i < configMaxRealms, (t.entries i).inUse = true → (t.entries i).tag ≠ tag)
    (hrd : ∀ i < configMaxRealms, (t.entries i).inUse = true → (t.entries i).rdPa ≠ rdPa)
    (hent : t'.entries = Function.update t.entries slot ⟨rdPa, tag, true⟩)
    (hcount : t'.nextIndex < kDefaultTags.length → t'.counter ∈ [0#8, 1#8]) : t'.Ok := by
  have hold : ∀ i, i ≠ slot → t'.entries i = t.entries i := fun i hi => by
    rw [hent, Function.update_of_ne hi]
  have hnew : t'.entries slot = ⟨rdPa, tag, true⟩ := by rw [hent, Function.update_self]
  refine ⟨fun i hi hu => ?_, fun i hi j hj hui huj heq => ?_,
    fun i hi j hj hui huj heq => ?_, hcount⟩
  · by_cases hs : i = slot
    · rw [hs, hnew]
      exact hzero
    · rw [hold i hs] at hu ⊢
      exact h.nonzero i hi hu
  · by_cases his : i = slot <;> by_cases hjs : j = slot
    · rw [his, hjs]
    · rw [his, hnew, hold j hjs] at heq
      rw [hold j hjs] at huj
      exact absurd heq.symm (htag j hj huj)
    · rw [hjs, hnew, hold i his] at heq
      rw [hold i his] at hui
      exact absurd heq (htag i hi hui)
    · rw [hold i his, hold j hjs] at heq
      rw [hold i his] at hui
      rw [hold j hjs] at huj
      exact h.tag_inj i hi j hj hui huj heq
  · by_cases his : i = slot <;> by_cases hjs : j = slot
    · rw [his, hjs]
    · rw [his, hnew, hold j hjs] at heq
      rw [hold j hjs] at huj
      exact absurd heq.symm (hrd j hj huj)
    · rw [hjs, hnew, hold i his] at heq
      rw [hold i his] at hui
      exact absurd heq (hrd i hi hui)
    · rw [hold i his, hold j hjs] at heq
      rw [hold i his] at hui
      rw [hold j hjs] at huj
      exact h.rd_inj i hi j hj hui huj heq

/-- Entries that are kept or no longer in use. -/
theorem Ok.trim {t' : TagRegistry} (h : t.Ok)
    (hent : ∀ i, (t'.entries i).inUse = true → t'.entries i = t.entries i)
    (hcount : t'.nextIndex < kDefaultTags.length → t'.counter ∈ [0#8, 1#8]) : t'.Ok := by
  refine ⟨fun i hi hu => ?_, fun i hi j hj hui huj heq => ?_,
    fun i hi j hj hui huj heq => ?_, hcount⟩
  · have he := hent i hu
    rw [he] at hu ⊢
    exact h.nonzero i hi hu
  · have hei := hent i hui
    have hej := hent j huj
    rw [hei, hej] at heq
    rw [hei] at hui
    rw [hej] at huj
    exact h.tag_inj i hi j hj hui huj heq
  · have hei := hent i hui
    have hej := hent j huj
    rw [hei, hej] at heq
    rw [hei] at hui
    rw [hej] at huj
    exact h.rd_inj i hi j hj hui huj heq

theorem Ok.assign (h : t.Ok) (rdPa : Word) : (realmTagAssign t rdPa).Ok := by
  rw [realmTagAssign_eq]
  have hcount := assign_counter h.counter rdPa
  rcases assign_cases t rdPa with ⟨-, hent⟩ | ⟨slot, tag, -, -, hzero, htag, hrd, -, hent⟩
  · exact h.trim (fun i _ => by rw [hent]) hcount
  · exact h.insert hzero htag hrd hent hcount

theorem Ok.remove (h : t.Ok) (rdPa : Word) : (realmTagRemove t rdPa).Ok := by
  unfold realmTagRemove
  cases findSlotByRd t rdPa with
  | none => exact h
  | some slot =>
    refine h.trim (fun i hu => ?_) h.counter
    by_cases hi : i = slot
    · simp [hi] at hu
    · exact Function.update_of_ne hi _ _

theorem ok_default : (default : TagRegistry).Ok where
  nonzero := by rintro i - ⟨⟩
  tag_inj := by rintro i - j - ⟨⟩
  rd_inj := by rintro i - j - ⟨⟩
  counter _ := by decide

theorem ok_init (t : TagRegistry) : (realmTagInit t).Ok where
  nonzero := by rintro i - ⟨⟩
  tag_inj := by rintro i - j - ⟨⟩
  rd_inj := by rintro i - j - ⟨⟩
  counter _ := by simp [realmTagInit]

/-- What the lookup by realm finds. -/
theorem Ok.getByRd_iff (h : t.Ok) (rdPa : Word) (tag : Byte) :
    realmTagGetByRd t rdPa = some tag ↔
      ∃ i < configMaxRealms, t.entries i = ⟨rdPa, tag, true⟩ := by
  unfold realmTagGetByRd
  rw [Option.map_eq_some_iff]
  constructor
  · rintro ⟨i, hi, rfl⟩
    obtain ⟨hlt, hp⟩ := findFirst_some hi
    simp only [Bool.and_eq_true, beq_iff_eq] at hp
    exact ⟨i, hlt, by rw [← hp.1, ← hp.2]⟩
  · rintro ⟨i, hlt, he⟩
    obtain ⟨j, hj⟩ := Option.isSome_iff_exists.mp
      ((findSlotByRd_isSome t rdPa).mpr ⟨i, hlt, by rw [he], by rw [he]⟩)
    obtain ⟨hjlt, hp⟩ := findFirst_some hj
    simp only [Bool.and_eq_true, beq_iff_eq] at hp
    have hij := h.rd_inj i hlt j hjlt (by rw [he]) hp.1 (by rw [he, hp.2])
    exact ⟨j, hj, by rw [← hij, he]⟩

/-- What the lookup by tag finds. -/
theorem Ok.rdByTag_iff (h : t.Ok) (rdPa : Word) (tag : Byte) :
    realmTagRdByTag t tag = some rdPa ↔
      ∃ i < configMaxRealms, t.entries i = ⟨rdPa, tag, true⟩ := by
  unfold realmTagRdByTag
  split
  · next hzero =>
    constructor
    · rintro ⟨⟩
    · rintro ⟨i, hlt, he⟩
      exact absurd hzero (by simpa [he] using h.nonzero i hlt (by rw [he]))
  rw [Option.map_eq_some_iff]
  constructor
  · rintro ⟨i, hi, rfl⟩
    obtain ⟨hlt, hp⟩ := findFirst_some hi
    simp only [Bool.and_eq_true, beq_iff_eq] at hp
    exact ⟨i, hlt, by rw [← hp.1, ← hp.2]⟩
  · rintro ⟨i, hlt, he⟩
    obtain ⟨j, hj⟩ := Option.isSome_iff_exists.mp
      ((collides_iff t tag).mpr ⟨i, hlt, by rw [he], by rw [he]⟩)
    obtain ⟨hjlt, hp⟩ := findFirst_some hj
    simp only [Bool.and_eq_true, beq_iff_eq] at hp
    have hij := h.tag_inj i hlt j hjlt (by rw [he]) hp.1 (by rw [he, hp.2])
    exact ⟨j, hj, by rw [← hij, he]⟩

theorem card_used_lt_iff (t : TagRegistry) :
    t.used.card < configMaxRealms ↔ ∃ i < configMaxRealms, (t.entries i).inUse = false := by
  have hle : t.used ⊆ Finset.range configMaxRealms := Finset.filter_subset _ _
  constructor
  · intro hlt
    by_contra hnone
    have hall : t.used = Finset.range configMaxRealms := by
      refine Finset.Subset.antisymm hle fun i hi => ?_
      refine Finset.mem_filter.mpr ⟨hi, ?_⟩
      by_contra hf
      exact hnone ⟨i, Finset.mem_range.mp hi, by simpa using hf⟩
    rw [hall, Finset.card_range] at hlt
    exact absurd hlt (lt_irrefl _)
  · rintro ⟨i, hi, hfree⟩
    have hss : t.used ⊂ Finset.range configMaxRealms := by
      refine Finset.filter_ssubset.mpr ⟨i, Finset.mem_range.mpr hi, ?_⟩
      simp [hfree]
    simpa using Finset.card_lt_card hss

/-- The attempts never run out before the entries do. -/
theorem Ok.assign_isSome_iff (h : t.Ok) (rdPa : Word) :
    (realmTagAssignOut t rdPa).2.isSome = true ↔
      realmTagGetByRd t rdPa = none ∧ t.used.card < configMaxRealms := by
  have hnone : realmTagGetByRd t rdPa = none ↔ (findSlotByRd t rdPa).isSome = false := by
    unfold realmTagGetByRd
    cases findSlotByRd t rdPa <;> simp
  rw [hnone]
  constructor
  · intro hs
    rcases assign_cases t rdPa with ⟨hn, -⟩ | ⟨slot, tag, hlt, hfree, -, -, hrd, -, -⟩
    · rw [hn] at hs
      cases hs
    · refine ⟨?_, (card_used_lt_iff t).mpr ⟨slot, hlt, hfree⟩⟩
      rw [Bool.eq_false_iff]
      intro hc
      obtain ⟨i, hi, hu, heq⟩ := (findSlotByRd_isSome t rdPa).mp hc
      exact hrd i hi hu heq
  · rintro ⟨hrd, hfree⟩
    have hdraw := h.draw_isSome hfree
    obtain ⟨i, hi, hfi⟩ := (card_used_lt_iff t).mp hfree
    unfold realmTagAssignOut
    rw [if_neg (by simp [hrd])]
    cases hslot : findFirst configMaxRealms fun i => !(t.entries i).inUse with
    | none => simpa [hfi] using findFirst_none hslot hi
    | some slot =>
      rcases hd : realmTagDraw 16 t with ⟨t', _ | tag⟩
      · rw [hd] at hdraw
        cases hdraw
      · rfl

/-- A realm that was assigned a tag is found under it. -/
theorem Ok.getByRd_assign (h : t.Ok) {rdPa : Word} {tag : Byte}
    (ha : (realmTagAssignOut t rdPa).2 = some tag) :
    realmTagGetByRd (realmTagAssign t rdPa) rdPa = some tag := by
  refine ((h.assign rdPa).getByRd_iff rdPa tag).mpr ?_
  rw [realmTagAssign_eq]
  rcases assign_cases t rdPa with ⟨hn, -⟩ | ⟨slot, tag', hlt, -, -, -, -, hs, hent⟩
  · rw [hn] at ha
    cases ha
  · rw [ha] at hs
    cases hs
    exact ⟨slot, hlt, by rw [hent, Function.update_self]⟩

end TagRegistry

/-- The calls of the tag registry. The lookups change nothing. -/
inductive TagCall
  | init
  | assign (rdPa : Word)
  | remove (rdPa : Word)
  | getByRd (rdPa : Word)
  | rdByTag (tag : Byte)
  deriving DecidableEq, Repr

def tagCall (t : TagRegistry) : TagCall → TagRegistry
  | .init => realmTagInit t
  | .assign rdPa => realmTagAssign t rdPa
  | .remove rdPa => realmTagRemove t rdPa
  | .getByRd _ | .rdByTag _ => t

theorem TagRegistry.Ok.calls {t : TagRegistry} (h : t.Ok) (calls : List TagCall) :
    (calls.foldl tagCall t).Ok := by
  induction calls generalizing t with
  | nil => exact h
  | cons call calls ih =>
    refine ih ?_
    cases call with
    | init => exact TagRegistry.ok_init t
    | assign rdPa => exact h.assign rdPa
    | remove rdPa => exact h.remove rdPa
    | getByRd rdPa => exact h
    | rdByTag tag => exact h

/-- After any calls the tags in use are not zero and pairwise different, so are the
realms, the two lookups are inverse to each other on the entries in use, and a realm
is assigned a tag exactly if it has none and an entry is free. -/
theorem tagRegistry_laws (calls : List TagCall) :
    let t := calls.foldl tagCall default
    (∀ i < configMaxRealms, (t.entries i).inUse = true → (t.entries i).tag ≠ 0#8) ∧
    (∀ i < configMaxRealms, ∀ j < configMaxRealms, (t.entries i).inUse = true →
      (t.entries j).inUse = true → i ≠ j →
        (t.entries i).tag ≠ (t.entries j).tag ∧ (t.entries i).rdPa ≠ (t.entries j).rdPa) ∧
    (∀ rdPa tag, realmTagGetByRd t rdPa = some tag ↔
      ∃ i < configMaxRealms, t.entries i = ⟨rdPa, tag, true⟩) ∧
    (∀ rdPa tag, realmTagGetByRd t rdPa = some tag ↔ realmTagRdByTag t tag = some rdPa) ∧
    ∀ rdPa, ((realmTagAssignOut t rdPa).2.isSome = true ↔
        realmTagGetByRd t rdPa = none ∧ t.used.card < configMaxRealms) ∧
      ∀ tag, (realmTagAssignOut t rdPa).2 = some tag →
        realmTagGetByRd (tagCall t (.assign rdPa)) rdPa = some tag := by
  intro t
  have h : t.Ok := TagRegistry.ok_default.calls calls
  refine ⟨h.nonzero, fun i hi j hj hui huj hne => ⟨fun heq => hne ?_, fun heq => hne ?_⟩,
    h.getByRd_iff, fun rdPa tag => ?_, fun rdPa =>
      ⟨h.assign_isSome_iff rdPa, fun tag htag => ?_⟩⟩
  · exact h.tag_inj i hi j hj hui huj heq
  · exact h.rd_inj i hi j hj hui huj heq
  · rw [h.getByRd_iff, h.rdByTag_iff]
  · exact h.getByRd_assign htag

end RmmCaec

import RmmCaec.Effects

/-!
# Changes away from the tables

Two kinds of change leave every table alone: a granule without metadata moves
between states that carry none, and the content of a granule that holds a record
is rewritten. Both keep a state well formed.
-/
namespace RmmCaec

open RadixForest Outcome

/-- Only one granule changes; it holds no metadata before or after. -/
structure PlainChange (s s' : State) (g : Word) : Prop where
  was : (s.granule g).state.plain = true
  is : (s'.granule g).state.plain = true
  count : (s'.granule g).refcount = 0
  granule : ∀ x, x ≠ g → s'.granule x = s.granule x
  rd : ∀ x, x ≠ g → s'.rd x = s.rd x
  recs : ∀ x, x ≠ g → s'.recs x = s.recs x
  rtt : ∀ x, x ≠ g → s'.rtt x = s.rtt x
  apt : ∀ x, x ≠ g → s'.apt x = s.apt x
  zero : (s'.granule g).state.blank = true → s'.rd g = default ∧ s'.recs g = default ∧
    s'.apt g = default
  scrubbed : (s'.granule g).state = .DELEGATED → s'.rtt g = fun _ => 0#64
  tlb : s'.tlb = s.tlb
  vmids : s'.vmids = s.vmids

namespace PlainChange

variable {s s' : State} {g : Word}

theorem ne_of_state {x : Word} {st : GranuleState} (hp : st.plain = false)
    (hx : (s.granule x).state = st) (h : (s.granule g).state.plain = true) : x ≠ g := by
  rintro rfl
  rw [hx, hp] at h
  cases h

theorem state_iff (h : PlainChange s s' g) {st : GranuleState} (hp : st.plain = false) (x : Word) :
    (s'.granule x).state = st ↔ (s.granule x).state = st := by
  by_cases hx : x = g
  · subst hx
    constructor
    · intro hc
      exact absurd rfl (ne_of_state hp hc h.is)
    · intro hc
      exact absurd rfl (ne_of_state hp hc h.was)
  · rw [h.granule x hx]

theorem quiet (h : PlainChange s s' g) (freed claimed : Option Word)
    (hd : (s.granule g).state = .DATA → freed = some g ∨ (s'.granule g).state = .DATA)
    (hn : (s'.granule g).state = .DATA → claimed = some g ∨ (s.granule g).state = .DATA) :
    Quiet s s' freed claimed where
  rtt := h.state_iff rfl
  rd := h.state_iff rfl
  ctx x hx := by rw [h.rd x (ne_of_state rfl hx h.was)]
  word x hx := by rw [h.rtt x (ne_of_state rfl hx h.was)]
  count x hx := by rw [h.granule x (ne_of_state rfl hx h.was)]
  data x hx hne := by
    by_cases hg : x = g
    · subst hg
      rcases hd hx with h1 | h1
      · exact absurd h1 hne
      · exact h1
    · rw [h.granule x hg, hx]
  newData x hx := by
    by_cases hg : x = g
    · subst hg
      exact (hn hx).symm
    · rw [h.granule x hg] at hx
      exact .inl hx
  tlb := h.tlb
  vmids := h.vmids

theorem sameMeta {F : Tables} (hw : Wf s F) (h : PlainChange s s' g) : SameMeta s s' where
  rd := h.state_iff rfl
  recs := h.state_iff rfl
  rdRefs x hx := by rw [h.granule x (ne_of_state rfl hx h.was)]
  ctx x hx := by rw [h.rd x (ne_of_state rfl hx h.was)]
  gRd x hx := by rw [h.recs x (ne_of_state rfl hx h.was)]
  plain x hx := by
    by_cases hg : x = g
    · rw [hg, h.count]
    · rw [h.granule x hg] at hx ⊢
      exact hw.plain x hx
  zero x hx := by
    by_cases hg : x = g
    · subst hg
      exact h.zero hx
    · rw [h.granule x hg] at hx
      rw [h.rd x hg, h.recs x hg, h.apt x hg]
      exact hw.zero x hx
  scrubbed x hx := by
    by_cases hg : x = g
    · subst hg
      exact h.scrubbed hx
    · rw [h.granule x hg] at hx
      rw [h.rtt x hg]
      exact hw.scrubbed x hx
  vmids := h.vmids

theorem wf {F : Tables} (hw : Wf s F) (h : PlainChange s s' g) : Wf s' F :=
  (h.quiet (some g) (some g) (fun _ => .inl rfl) fun _ => .inl rfl).wf hw
    (h.sameMeta hw)

end PlainChange

theorem plainChange_setState {s : State} {F : Tables} (hw : Wf s F) (g : Word) (st : GranuleState)
    (hwas : (s.granule g).state.plain = true) (his : st.plain = true) (hdel : st ≠ .DELEGATED)
    (hz : (s.granule g).state.blank = true ∨ st.blank = false) :
    PlainChange s (s.setState g st) g where
  was := hwas
  is := by simpa [State.setState] using his
  count := by simpa [State.setState] using hw.plain g hwas
  granule x hx := by simp [State.setState, Function.update_of_ne hx]
  rd _ _ := rfl
  recs _ _ := rfl
  rtt _ _ := rfl
  apt _ _ := rfl
  zero hx := by
    rcases hz with hz | hz
    · exact hw.zero g hz
    · simp [State.setState, hz] at hx
  scrubbed hx := absurd (by simpa [State.setState] using hx) hdel
  tlb := rfl
  vmids := rfl

/-- A granule is returned to DELEGATED with zeroed words. -/
def State.release (s : State) (g : Word) : State :=
  (s.setTable g fun _ => 0#64).setState g .DELEGATED

theorem plainChange_release {s : State} {F : Tables} (hw : Wf s F) (g : Word)
    (hwas : (s.granule g).state.plain = true) (hz : (s.granule g).state.blank = true) :
    PlainChange s (s.release g) g where
  was := hwas
  is := by simp [State.release, GranuleState.plain]
  count := by simpa [State.release, State.setTable] using hw.plain g hwas
  granule x hx := State.setState_of_ne _ hx _
  rd _ _ := rfl
  recs _ _ := rfl
  rtt x hx := Function.update_of_ne hx _ _
  apt _ _ := rfl
  zero _ := hw.zero g hz
  scrubbed _ := Function.update_self ..
  tlb := rfl
  vmids := rfl

/-- Zeroing a granule without a record zeroes its words. -/
theorem memzero_blank {s : State} {F : Tables} (hw : Wf s F) {g : Word}
    (hg : (s.granule g).state.blank = true) : s.memzero g = s.setTable g fun _ => 0#64 := by
  obtain ⟨h1, h2, h3⟩ := hw.zero g hg
  unfold State.memzero State.setTable
  rw [← h1, ← h2, ← h3]
  simp only [Function.update_eq_self]

/-- Zeroing a DELEGATED granule changes nothing. -/
theorem memzero_delegated {s : State} {F : Tables} (hw : Wf s F) {g : Word}
    (hg : (s.granule g).state = .DELEGATED) : s.memzero g = s := by
  rw [memzero_blank hw (by rw [hg]; rfl), State.setTable, ← hw.scrubbed g hg,
    Function.update_eq_self]

/-- Only the content of granules changes, and of those that hold a record; realm
contexts and the realms of RECs stay. -/
structure RecordChange (s s' : State) : Prop where
  granule : s'.granule = s.granule
  rtt : s'.rtt = s.rtt
  ctx : ∀ g, (s.granule g).state = .RD → (s'.rd g).s2Ctx = (s.rd g).s2Ctx
  gRd : ∀ g, (s.granule g).state = .REC → (s'.recs g).gRd = (s.recs g).gRd
  blank : ∀ g, (s.granule g).state.blank = true →
    s'.rd g = s.rd g ∧ s'.recs g = s.recs g ∧ s'.apt g = s.apt g
  tlb : s'.tlb = s.tlb
  vmids : s'.vmids = s.vmids

namespace RecordChange

variable {s s' : State}

theorem quiet (h : RecordChange s s') : Quiet s s' none none where
  rtt g := by rw [h.granule]
  rd g := by rw [h.granule]
  ctx := h.ctx
  word g _ := by rw [h.rtt]
  count g _ := by rw [h.granule]
  data g hg _ := by rw [h.granule, hg]
  newData g hg := .inl (by rwa [h.granule] at hg)
  tlb := h.tlb
  vmids := h.vmids

theorem wf {F : Tables} (hw : Wf s F) (h : RecordChange s s') : Wf s' F := by
  refine h.quiet.wf hw ⟨fun g => by rw [h.granule], fun g => by rw [h.granule],
    fun g _ => by rw [h.granule], h.ctx, h.gRd, fun g hg => ?_, fun g hg => ?_, fun g hg => ?_,
    h.vmids⟩
  · rw [h.granule] at hg ⊢
    exact hw.plain g hg
  · rw [h.granule] at hg
    obtain ⟨h1, h2, h3⟩ := h.blank g hg
    rw [h1, h2, h3]
    exact hw.zero g hg
  · rw [h.granule] at hg
    rw [h.rtt]
    exact hw.scrubbed g hg

end RecordChange

/-- A granule that holds a record is not blank. -/
theorem ne_of_blank {s : State} {g x : Word} (hx : (s.granule x).state.blank = false)
    (hg : (s.granule g).state.blank = true) : g ≠ x := by
  rintro rfl
  rw [hx] at hg
  cases hg

theorem recordChange_setRd {s : State} {rdAddr : Word} {rd : Rd}
    (hrd : (s.granule rdAddr).state = .RD) (hctx : rd.s2Ctx = (s.rd rdAddr).s2Ctx) :
    RecordChange s (s.setRd rdAddr rd) where
  granule := rfl
  rtt := rfl
  ctx g _ := by
    by_cases hg : g = rdAddr
    · subst hg
      simpa [State.setRd] using hctx
    · simp [State.setRd, Function.update_of_ne hg]
  gRd _ _ := rfl
  blank g hg := ⟨Function.update_of_ne (ne_of_blank (by rw [hrd]; rfl) hg) _ _, rfl, rfl⟩
  tlb := rfl
  vmids := rfl

theorem recordChange_setRec {s : State} {recAddr : Word} {r : Rec}
    (hrec : (s.granule recAddr).state = .REC) (hr : r.gRd = (s.recs recAddr).gRd) :
    RecordChange s (s.setRec recAddr r) where
  granule := rfl
  rtt := rfl
  ctx _ _ := rfl
  gRd g _ := by
    by_cases hg : g = recAddr
    · subst hg
      simpa [State.setRec] using hr
    · simp [State.setRec, Function.update_of_ne hg]
  blank g hg := ⟨rfl, Function.update_of_ne (ne_of_blank (by rw [hrec]; rfl) hg) _ _, rfl⟩
  tlb := rfl
  vmids := rfl

theorem recordChange_setApt {s : State} {aptAddr : Word} {a : Apt} (ids : CsmIdRegistry)
    (hapt : (s.granule aptAddr).state = .APT) :
    RecordChange s { s.setApt aptAddr a with csmIds := ids } where
  granule := rfl
  rtt := rfl
  ctx _ _ := rfl
  gRd _ _ := rfl
  blank g hg := ⟨rfl, rfl, Function.update_of_ne (ne_of_blank (by rw [hapt]; rfl) hg) _ _⟩
  tlb := rfl
  vmids := rfl

/-- The registries are read by no table. -/
theorem recordChange_registries (s : State) (tags : TagRegistry) (ids : CsmIdRegistry) :
    RecordChange s { s with tags := tags, csmIds := ids } where
  granule := rfl
  rtt := rfl
  ctx _ _ := rfl
  gRd _ _ := rfl
  blank _ _ := ⟨rfl, rfl, rfl⟩
  tlb := rfl
  vmids := rfl

end RmmCaec

import RmmCaec.RecordSteps

/-!
# The life of a realm

A realm is new, then active, then off. No call takes it back, and none changes the
context of its stage 2 translation.
-/
namespace RmmCaec
open RadixForest Outcome Runs

/-- The stages of a realm in order. -/
def RealmState.stage : RealmState → ℕ
  | .NEW => 0
  | .ACTIVE => 1
  | .SYSTEM_OFF => 2

/-- Realms that stay are not taken back to an earlier stage and keep their context. -/
def Onward (s s' : State) : Prop :=
  ∀ g, (s.granule g).state = .RD → (s'.granule g).state = .RD →
    (s.rd g).state.stage ≤ (s'.rd g).state.stage ∧ (s'.rd g).s2Ctx = (s.rd g).s2Ctx

namespace Onward

variable {s s1 s' : State} {F F' : Tables}

theorem of_rd (h : ∀ g, (s.granule g).state = .RD → (s'.granule g).state = .RD →
    ((s'.rd g).state, (s'.rd g).s2Ctx) = ((s.rd g).state, (s.rd g).s2Ctx)) : Onward s s' := by
  intro g hg hg'
  obtain ⟨h1, h2⟩ := Prod.mk.inj (h g hg hg')
  exact ⟨(congrArg RealmState.stage h1).ge, h2⟩

theorem refl (s : State) : Onward s s := of_rd fun _ _ _ => rfl

theorem of_eq (h : s'.rd = s.rd) : Onward s s' := of_rd fun _ _ _ => by rw [h]

theorem of_sameRecords (h : SameRecords s s') : Onward s s' := of_rd fun g hg _ => by rw [h.rd g hg]

/-- A page is destroyed. -/
theorem of_pageDestroyed {rdAddr mapAddr : Word} (hp : PageDestroyed s F rdAddr mapAddr s' F') :
    Onward s s' := by
  obtain ⟨t, n, i, r, d, s1, -, -, -, st, -, -, rfl⟩ := hp
  exact of_eq st.rd

/-- A descriptor is rewritten. -/
theorem setRd {rdAddr : Word} {rd : Rd} (h : (s.rd rdAddr).state.stage ≤ rd.state.stage)
    (hctx : rd.s2Ctx = (s.rd rdAddr).s2Ctx) : Onward s (s.setRd rdAddr rd) := by
  intro g _ _
  by_cases hg : g = rdAddr
  · subst hg
    simpa [State.setRd] using ⟨h, hctx⟩
  · simp [State.setRd, hg]

end Onward

/-- What the handlers of RSI calls do. -/
theorem RsiDone.onward {plat : Platform} {s s1 : State} {F : Tables} {recAddr : Word}
    {res : RsiResult} {call : RsiCall} (hd : RsiDone plat s F recAddr s1 res call) :
    Onward s s1 := by
  cases call with
  | csmCreate x2 x3 =>
    rcases hd with ⟨rfl, -⟩ | ⟨ids, -, rfl, -⟩ | ⟨ids, id, -, rfl, -⟩ |
      ⟨-, -, -, -, ids, id, apt', idx, -, -, rfl⟩ <;>
      exact .of_eq rfl
  | csmShare x1 x2 x3 =>
    rcases hd with ⟨rfl, -⟩ | ⟨-, -, _, _, _, _, -, -, -, -, rfl⟩ <;>
      exact .of_eq rfl
  | csmReserve x1 x2 x3 =>
    rcases hd with rfl | ⟨-, -, -, _, _, _, _, -, -, -, -, -, -, -, -, -, rfl⟩ <;>
      exact .of_eq rfl
  | csmAttach x1 =>
    rcases hd with ⟨rfl, -⟩ | ⟨-, _, _, _, -, -, -, -, hm⟩
    · exact .refl _
    · exact .of_eq hm.same.rd
  | csmDetachAndFree x1 =>
    rcases hd with ⟨rfl, -⟩ | ⟨-, _, _, -, -, hcl⟩
    · exact .refl _
    · exact .of_eq hcl.rd
  | csmRevoke x1 =>
    rcases hd with ⟨rfl, -⟩ | ⟨-, _, _, _, -, -, hcl⟩
    · exact .refl _
    · exact .of_eq hcl.rd
  | csmDestroy x1 =>
    rcases hd with ⟨rfl, -⟩ | ⟨-, -, _, -, -, rfl⟩ <;>
      exact .of_eq rfl
  | ipaStateSet x1 x2 x3 x4 =>
    have hs : s1 = (handleRsiIpaStateSet s recAddr x1 x2 x3 x4).1 := congrArg Prod.fst hd
    rcases handleRsiIpaStateSet_spec s recAddr x1 x2 x3 x4 with h1 | ⟨req, h1⟩ <;>
    · rw [hs, h1]
      exact .of_eq rfl
  | systemOff =>
    cases hd
    refine .setRd ?_ rfl
    cases (s.rd (s.recs recAddr).gRd).state <;> simp [RealmState.stage]

theorem StepDone.onward {plat : Platform} {s s' : State} {F : Tables} {reply : Reply} {act : Act}
    (h : Wf s F) (hd : StepDone plat s F s' reply act) : Onward s s' := by
  cases act with
  | granuleDelegate addr el3Ok | granuleUndelegate addr el3Ok =>
    rcases hd with rfl | ⟨g, -, rfl⟩ | ⟨g, -, rfl⟩ <;>
      exact .of_eq rfl
  | realmCreate rdAddr paramsAddr nsRead =>
    obtain ⟨res, -, ⟨rfl, -⟩ | ⟨-, ctx, hp⟩⟩ := hd
    · exact .refl _
    · exact .of_rd fun g hg _ => by rw [hp.rd_of_ne hg]
  | realmActivate rdAddr =>
    obtain rfl | ⟨-, hnew, rfl⟩ := hd
    · exact .refl _
    · refine .setRd ?_ rfl
      simp [hnew, RealmState.stage]
  | realmDestroy rdAddr =>
    obtain ⟨res, -, ⟨rfl, -⟩ | ⟨-, hp⟩⟩ := hd
    · exact .refl _
    · refine .of_rd fun g hg hg' => ?_
      have hne := ((hp.isRd g).mp hg').2
      rw [(hp.same (mt (hp.gone_of_rd hg).mp hne)).2.1]
  | recCreate rdAddr recAddr paramsAddr nsRead =>
    obtain ⟨res, -, ⟨rfl, -⟩ | ⟨-, -, aux, n⟩⟩ := hd
    · exact .refl _
    · refine .of_rd fun g _ _ => ?_
      rw [n.rd]
      by_cases hg : g = rdAddr
      · subst hg
        simp
      · simp [hg]
  | recDestroy recAddr =>
    obtain ⟨res, -, ⟨rfl, -⟩ | ⟨-, f⟩⟩ := hd
    · exact .refl _
    · refine .of_rd fun g hg _ => ?_
      obtain ⟨h1, h2⟩ := f.not_freed (by decide) (by decide) hg
      rw [(f.other g h1 h2).1]
  | recEnter recAddr runAddr entry reject =>
    obtain rfl | ⟨-, -, _, rfl | rfl⟩ := hd <;>
      exact .of_eq rfl
  | aptCreate rdAddr aptAddr =>
    obtain ⟨res, -, ⟨rfl, -⟩ | ⟨-, hdel, -, ⟨-, -, rfl⟩ | ⟨-, -, rfl⟩⟩⟩ := hd
    · exact .refl _
    · exact .of_eq rfl
    · refine .of_rd fun g _ _ => ?_
      by_cases hg : g = rdAddr
      · subst hg
        simp [State.setRd, State.setState]
      · simp [State.setRd, State.setState, hg]
  | aptDestroy rdAddr aptAddr =>
    obtain ⟨res, -, ⟨rfl, -⟩ | ⟨-, F', hf⟩⟩ := hd
    · exact .refl _
    · refine .of_rd fun g hg _ => ?_
      rw [hf.rd g]
      rintro rfl
      rw [hf.isApt] at hg
      cases hg
  | dataCreate rdAddr dataAddr mapAddr srcAddr flags nsCopy =>
    obtain ⟨res, -, ⟨rfl, -⟩ | ⟨-, s1, F1, r, old, F', ha, -, hm⟩, -⟩ := hd
    · exact .refl _
    · exact .of_rd fun g _ _ => by rw [hm.same.rd, ha.sameCtx]
  | dataCreateUnknown rdAddr dataAddr mapAddr =>
    obtain ⟨res, -, ⟨rfl, -⟩ | ⟨-, s1, F1, r, old, F', ha, -, hm⟩, -⟩ := hd
    · exact .refl _
    · exact .of_rd fun g _ _ => by rw [hm.same.rd, ha.sameCtx]
  | dataDestroy rdAddr mapAddr =>
    obtain ⟨res, -, ⟨rfl, -⟩ | ⟨-, t, n, i, r, d, s1, F1, F', -, -, -, st, -, -,
        hrem⟩, -⟩ := hd
    · exact .refl _
    · refine .of_eq ?_
      rw [hrem.same.rd]
      exact st.rd
  | rttCreate rdAddr rttAddr mapAddr ulevel =>
    obtain ⟨res, -, ⟨rfl, -⟩ | ⟨-, t, n, i, m, F', hg⟩⟩ := hd
    · exact .refl _
    · exact .of_sameRecords hg.graft.same
  | rttFold rdAddr mapAddr ulevel =>
    obtain ⟨res, -, ⟨rfl, -⟩ | ⟨-, t, n, i, k, m, new, pages, F', -, -, -, st, -⟩⟩ := hd
    · exact .refl _
    · exact .of_sameRecords st.same
  | rttDestroy rdAddr mapAddr ulevel =>
    obtain rfl | ⟨t, n, i, k, m, new, pages, F', -, st, -⟩ := hd
    · exact .refl _
    · exact .of_sameRecords st.same
  | rttMapUnprotected rdAddr mapAddr ulevel s2tte =>
    obtain ⟨F', ht⟩ := hd
    exact .of_eq ht.same.rd
  | rttUnmapUnprotected rdAddr mapAddr ulevel =>
    obtain ⟨F', ht⟩ := hd
    exact .of_eq ht.same.rd
  | rttInitRipas rdAddr base top =>
    obtain ⟨F', height, ht⟩ := hd
    exact .of_eq ht.same.rd
  | rttSetRipas rdAddr recAddr base top =>
    obtain rfl | ⟨-, -, -, -, -, s1, F', height, ht, rfl | ⟨addr, -, rfl⟩⟩ := hd
    · exact .refl _
    · exact .of_eq ht.same.rd
    · exact .of_eq ht.same.rd
  | rsi recAddr call =>
    obtain ⟨-, rfl, -⟩ | ⟨-, s1, res, hr, -, rfl⟩ := hd
    · exact .refl _
    · have honward := hr.onward
      split
      · intro g hg hg'
        rw [State.setRefcount_state] at hg'
        exact honward g hg hg'
      · exact honward
  | recExit recAddr =>
    obtain ⟨-, rfl⟩ | ⟨-, rfl⟩ := hd <;>
      exact .of_eq rfl

end RmmCaec

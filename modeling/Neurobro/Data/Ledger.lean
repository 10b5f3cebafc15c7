import Mathlib.Logic.Basic

/-! Revocable grants. A holder has one current grant; a grant has revisions that only
grow, and a revoked grant stays revoked. Authority is exercised through stamps that
name a holder, its grant and a revision: a stamp is live only while all three are
current. -/
namespace Neurobro

structure Ledger (Holder Id : Type) where
  current : Holder → Option Id
  revision : Id → Option Nat
  revoked : Id → Prop
  /-- Names that have been given out; a new grant gets another one. -/
  used : Id → Prop

namespace Ledger

structure Stamp (Holder Id : Type) where
  holder : Holder
  grant : Id
  revision : Nat

variable {Holder Id : Type}

/-- What time may do to a ledger. -/
structure Advance (L L' : Ledger Holder Id) : Prop where
  used : ∀ g, L.used g → L'.used g
  current : ∀ h g, L.current h = some g → ∃ g', L'.current h = some g' ∧ (g' = g ∨ ¬L.used g')
  revision : ∀ g n, L.revision g = some n → ∃ n', L'.revision g = some n' ∧ n ≤ n'
  revoked : ∀ g, L.revoked g → L'.revoked g

def Live (L : Ledger Holder Id) (stamp : Stamp Holder Id) : Prop :=
  L.current stamp.holder = some stamp.grant ∧ L.revision stamp.grant = some stamp.revision ∧
    ¬L.revoked stamp.grant

/-- A stamp that was taken from this ledger, now or earlier. -/
structure Dated (L : Ledger Holder Id) (stamp : Stamp Holder Id) : Prop where
  used : L.used stamp.grant
  holder : ∃ g, L.current stamp.holder = some g
  revision : ∃ n, L.revision stamp.grant = some n ∧ stamp.revision ≤ n

/-- A stamp that has been overtaken. -/
def Spent (L : Ledger Holder Id) (stamp : Stamp Holder Id) : Prop :=
  L.used stamp.grant ∧
    ((∃ g, L.current stamp.holder = some g ∧ g ≠ stamp.grant) ∨
      (∃ n, L.revision stamp.grant = some n ∧ stamp.revision < n) ∨ L.revoked stamp.grant)

/-- The holder's current grant is revoked or gains a revision. -/
def Withdraws (holder : Holder) (L L' : Ledger Holder Id) : Prop :=
  ∀ g, L.current holder = some g → L'.revoked g ∨
    ∃ n n', L.revision g = some n ∧ L'.revision g = some n' ∧ n < n'

namespace Advance

variable {L L' L'' : Ledger Holder Id} {stamp : Stamp Holder Id}

theorem refl (L : Ledger Holder Id) : Advance L L :=
  ⟨fun _ h => h,fun _ g h => ⟨g,h,.inl rfl⟩,fun _ n h => ⟨n,h,Nat.le_refl n⟩,fun _ h => h⟩

theorem dated (advance : Advance L L') (dated : L.Dated stamp) : L'.Dated stamp := by
  obtain ⟨g,current⟩ := dated.holder
  obtain ⟨n,known,older⟩ := dated.revision
  obtain ⟨g',current',_⟩ := advance.current _ g current
  obtain ⟨n',known',grown⟩ := advance.revision _ n known
  exact ⟨advance.used _ dated.used,⟨g',current'⟩,n',known',Nat.le_trans older grown⟩

/-- Once overtaken, always overtaken: names of grants are not given out twice. -/
theorem spent (advance : Advance L L') (spent : L.Spent stamp) : L'.Spent stamp := by
  obtain ⟨used,reason⟩ := spent
  refine ⟨advance.used _ used,?_⟩
  rcases reason with ⟨g,current,other⟩ | ⟨n,known,newer⟩ | revoked
  · obtain ⟨g',current',same | fresh⟩ := advance.current _ g current
    · exact .inl ⟨g',current',same ▸ other⟩
    · exact .inl ⟨g',current',fun same => fresh (same ▸ used)⟩
  · obtain ⟨n',known',grown⟩ := advance.revision _ n known
    exact .inr (.inl ⟨n',known',Nat.lt_of_lt_of_le newer grown⟩)
  · exact .inr (.inr (advance.revoked _ revoked))

/-- Withdrawal overtakes every stamp of the holder taken before it. -/
theorem withdrawn (advance : Advance L L') (dated : L.Dated stamp)
    (withdraws : Withdraws stamp.holder L L') : L'.Spent stamp := by
  obtain ⟨g,current⟩ := dated.holder
  by_cases same : g = stamp.grant
  · subst same
    refine ⟨advance.used _ dated.used,?_⟩
    rcases withdraws _ current with revoked | ⟨n,n',known,known',grown⟩
    · exact .inr (.inr revoked)
    · obtain ⟨m,stored,older⟩ := dated.revision
      have : m = n := Option.some.inj (stored.symm.trans known)
      exact .inr (.inl ⟨n',known',by omega⟩)
  · exact advance.spent ⟨dated.used,.inl ⟨g,current,same⟩⟩

end Advance

theorem Spent.not_live {L : Ledger Holder Id} {stamp : Stamp Holder Id} (spent : L.Spent stamp) :
    ¬L.Live stamp := by
  rintro ⟨current,known,unrevoked⟩
  rcases spent.2 with ⟨g,other,apart⟩ | ⟨n,stored,newer⟩ | revoked
  · exact apart (Option.some.inj (other.symm.trans current))
  · have : n = stamp.revision := Option.some.inj (stored.symm.trans known)
    omega
  · exact unrevoked revoked

end Ledger

end Neurobro

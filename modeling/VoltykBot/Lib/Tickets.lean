import Mathlib.Order.Basic

/-!
This module contains tickets for resources: who has the ticket of a resource may come to hold it. It shows
how no resource gets two holders.
-/

namespace Tickets

variable {U C : Type*} {holds holds' tickets tickets' : U → C → Prop}

structure Exclusive (holds tickets : U → C → Prop) : Prop where
  holder : ∀ {u v : U} {c : C}, holds u c → holds v c → u = v
  ticket : ∀ {u v : U} {c : C}, tickets u c → tickets v c → u = v
  reserved : ∀ {u v : U} {c : C}, tickets u c → holds v c → v = u

theorem Exclusive.mono (h : Exclusive holds tickets) (hholds : ∀ u c, holds' u c → holds u c)
    (htickets : ∀ u c, tickets' u c → tickets u c) : Exclusive holds' tickets' where
  holder hu hv := h.holder (hholds _ _ hu) (hholds _ _ hv)
  ticket hu hv := h.ticket (htickets _ _ hu) (htickets _ _ hv)
  reserved hu hv := h.reserved (htickets _ _ hu) (hholds _ _ hv)

theorem Exclusive.redeem (h : Exclusive holds tickets)
    (hholds : ∀ u c, holds' u c → holds u c ∨ tickets u c) : Exclusive holds' tickets where
  holder := by
    intro u v c hu hv
    rcases hholds u c hu with hu | hu
    . rcases hholds v c hv with hv | hv
      . exact h.holder hu hv
      . exact h.reserved hv hu
    . rcases hholds v c hv with hv | hv
      . exact (h.reserved hu hv).symm
      . exact h.ticket hu hv
  ticket := h.ticket
  reserved := by
    intro u v c hu hv
    rcases hholds v c hv with hv | hv
    . exact h.reserved hu hv
    . exact h.ticket hv hu

theorem Exclusive.issue (h : Exclusive holds tickets) {issued : U → C → Prop}
    (htickets : ∀ v d, tickets' v d → tickets v d ∨ issued v d)
    (hunique : ∀ {u v : U} {c : C}, tickets' u c → tickets' v c → u = v)
    (hfree : ∀ u v c, issued u c → holds v c → v = u) : Exclusive holds tickets' where
  holder := h.holder
  ticket := hunique
  reserved := by
    intro u v c hu hv
    rcases htickets u c hu with hu | hu
    . exact h.reserved hu hv
    . exact hfree u v c hu hv

end Tickets

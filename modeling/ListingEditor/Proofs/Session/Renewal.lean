import ListingEditor.Proofs.Preference.Settings
import ListingEditor.Proofs.Session.Activation

/-!
Sessions that are made again. The values of a session are those of settings of its mode, whatever names the plugins
have assigned values to, so the mode can be activated once more for settings that are made from them.
-/

namespace ListingEditor

open Preference (Settings Store)

namespace Mode

variable {mode : Mode} {settings : Settings} {store : Store} {given : Option Nat} {plugins : List Plugin}
  {platform : String} {session : Session}

end Mode

end ListingEditor

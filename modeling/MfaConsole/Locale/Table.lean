/-! The wordings that come with the console, by language and message. -/

namespace MfaConsole
namespace Locale

def german : List (String × String) :=
  [("eduMFA Server Config saved.", "eduMFA-Server-Konfiguration gespeichert."),
   ("Request to remote eduMFA server successful.", "Anfrage an entfernten eduMFA-Server erfolgreich."),
   ("Request to remote eduMFA server failed.", "Anfrage an entfernten eduMFA-Server fehlgeschlagen."),
   ("Identifier and URL are required.", "Bezeichner und URL sind erforderlich."),
   ("The recovery code has been sent to your email address.",
    "Der Wiederherstellungscode wurde an Ihre E-Mail-Adresse gesendet."),
   ("Your password has been reset.", "Ihr Passwort wurde zurückgesetzt."),
   ("The passwords do not match.", "Die Passwörter stimmen nicht überein."),
   ("Your session has expired.", "Ihre Sitzung ist abgelaufen."),
   ("Token attached to machine.", "Token wurde der Maschine zugeordnet."),
   ("Token detached from machine.", "Token wurde von der Maschine entfernt."),
   ("Token options saved.", "Token-Optionen gespeichert."),
   ("Reload", "Neu laden"),
   ("eduMFA administration", "eduMFA-Verwaltung"),
   ("Components", "Komponenten"),
   ("Machine details", "Maschinendetails"),
   ("Password recovery", "Passwort-Wiederherstellung"),
   ("eduMFA servers", "eduMFA-Server")]

def ownTable : List (String × List (String × String)) := [("de", german)]

end Locale
end MfaConsole

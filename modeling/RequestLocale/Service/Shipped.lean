import RequestLocale.Table

/-! The messages that the service brings along, in three languages. The bundles of an application
are laid over them. -/
namespace RequestLocale.Service

def english : Messages := Table.ofList
  [("error_locale_not_found", "Locale \x7blocale\x7d is not available"),
   ("error_configuration", "The server is not configured correctly"),
   ("health_ok", "Service is running")]

def french : Messages := Table.ofList
  [("error_locale_not_found", "La langue \x7blocale\x7d n'est pas disponible"),
   ("error_configuration", "Le serveur n'est pas configuré correctement"),
   ("health_ok", "Le service fonctionne")]

def chinese : Messages := Table.ofList
  [("error_locale_not_found", "语言 \x7blocale\x7d 不可用"),
   ("error_configuration", "服务器配置不正确"),
   ("health_ok", "服务运行中")]

def shipped : Table Messages :=
  Table.ofList [("en_us", english), ("fr_fr", french), ("zh_cn", chinese)]

end RequestLocale.Service

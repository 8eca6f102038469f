import Formulary.Catalog.Basic

/-!
# The standard catalog

The constants, units and equations that come with the calculator, in the order in which they are
listed.
-/

namespace Formulary.Catalog

/-- The constants of the standard catalog. -/
def standardConstants : Table Constant :=
  [("g", ⟨9.80665, "m/s²", "Aceleração da gravidade padrão"⟩),
   ("h", ⟨6.62607015e-34, "J·s", "Constante de Planck"⟩),
   ("G", ⟨6.67430e-11, "m³·kg⁻¹·s⁻²", "Constante gravitacional"⟩),
   ("k", ⟨8.9875517923e9, "N·m²·C⁻²", "Constante de Coulomb"⟩),
   ("μ0", ⟨1.2566370614359173e-6, "N·A⁻²", "Permeabilidade magnética do vácuo"⟩),
   ("c", ⟨299792458.0, "m/s", "Velocidade da luz no vácuo"⟩),
   ("R", ⟨8.314462618, "J·mol⁻¹·K⁻¹", "Constante universal dos gases"⟩),
   ("pi", ⟨3.141592653589793, "", "Número π"⟩),
   ("e", ⟨2.718281828459045, "", "Número de Euler"⟩)]

/-- The units of the standard catalog. -/
def standardUnits : Table String :=
  [("s", "m"), ("s0", "m"), ("v", "m/s"), ("v0", "m/s"), ("a", "m/s²"), ("t", "s"),
   ("d", "m"), ("h", "m"), ("m", "kg"), ("F", "N"), ("Ep", "J"), ("Ec", "J")]

/-- The equations of the subarea `cinematica`. -/
def cinematica : Subarea where
  key := "cinematica"
  name := "Cinemática"
  equations :=
    [⟨"mru_position", "Posição (MRU)",
      "s = s0 + v * t", ["s", "s0", "v", "t"]⟩,
     ⟨"mruv_velocity", "Velocidade (MRUV)",
      "v = v0 + a * t", ["v", "v0", "a", "t"]⟩,
     ⟨"mruv_position", "Posição (MRUV)",
      "s = s0 + (v0 * t) + (0.5 * a * t^2)", ["s", "s0", "v0", "a", "t"]⟩,
     ⟨"torricelli", "Equação de Torricelli",
      "v^2 = v0^2 + 2 * a * d", ["v", "v0", "a", "d"]⟩,
     ⟨"tempo_de_queda", "Tempo de Queda Livre",
      "t = sqrt(2 * h / CONSTANT_g)", ["t", "h", "CONSTANT_g"]⟩,
     ⟨"alcance_horizontal", "Alcance Horizontal (Lançamento)",
      "R = (v0^2 * sin(2 * theta)) / CONSTANT_g", ["R", "v0", "theta", "CONSTANT_g"]⟩,
     ⟨"altura_maxima", "Altura Máxima (Lançamento)",
      "h = (v0^2 * sin(theta)^2) / (2 * CONSTANT_g)", ["h", "v0", "theta", "CONSTANT_g"]⟩,
     ⟨"velocidade_angular", "Velocidade Angular",
      "w = theta / t", ["w", "theta", "t"]⟩,
     ⟨"aceleracao_angular", "Aceleração Angular",
      "alpha = (w - w0) / t", ["alpha", "w", "w0", "t"]⟩,
     ⟨"velocidade_tangencial", "Velocidade Tangencial",
      "v = w * r", ["v", "w", "r"]⟩,
     ⟨"aceleracao_centripeta", "Aceleração Centrípeta",
      "ac = v^2 / r", ["ac", "v", "r"]⟩,
     ⟨"periodo_movimento_circular", "Período (Movimento Circular)",
      "T = 2 * pi / w", ["T", "w"]⟩,
     ⟨"frequencia", "Frequência",
      "f = 1 / T", ["f", "T"]⟩]

/-- The equations of the subarea `dinamica`. -/
def dinamica : Subarea where
  key := "dinamica"
  name := "Dinâmica"
  equations :=
    [⟨"segunda_lei_newton", "Segunda Lei de Newton",
      "F = m * a", ["F", "m", "a"]⟩,
     ⟨"atrito", "Força de Atrito",
      "F_at = μ * N", ["F_at", "μ", "N"]⟩,
     ⟨"forca_elastica", "Lei de Hooke (Força Elástica)",
      "F = k * x", ["F", "k", "x"]⟩,
     ⟨"peso", "Força Peso",
      "P = m * CONSTANT_g", ["P", "m", "CONSTANT_g"]⟩,
     ⟨"forca_gravitacional", "Lei da Gravitação Universal",
      "F = CONSTANT_G * (m1 * m2) / r^2", ["F", "CONSTANT_G", "m1", "m2", "r"]⟩,
     ⟨"trabalho", "Trabalho",
      "W = F * d * cos(θ)", ["W", "F", "d", "θ"]⟩,
     ⟨"potencia", "Potência",
      "P = W / t", ["P", "W", "t"]⟩,
     ⟨"impulso", "Impulso",
      "I = F * Δt", ["I", "F", "Δt"]⟩,
     ⟨"quantidade_movimento", "Quantidade de Movimento",
      "Q = m * v", ["Q", "m", "v"]⟩]

/-- The equations of the subarea `energia`. -/
def energia : Subarea where
  key := "energia"
  name := "Energia"
  equations :=
    [⟨"energia_cinetica", "Energia Cinética",
      "Ec = 0.5 * m * v^2", ["Ec", "m", "v"]⟩,
     ⟨"energia_potencial_gravitacional", "Energia Potencial Gravitacional",
      "Ep = m * CONSTANT_g * h", ["Ep", "m", "CONSTANT_g", "h"]⟩,
     ⟨"energia_potencial_elastica", "Energia Potencial Elástica",
      "Ep = 0.5 * k * x^2", ["Ep", "k", "x"]⟩,
     ⟨"conservacao_energia", "Conservação da Energia Mecânica",
      "Em = Ec + Ep", ["Em", "Ec", "Ep"]⟩]

/-- The equations of the subarea `hidrostatica`. -/
def hidrostatica : Subarea where
  key := "hidrostatica"
  name := "Hidrostática"
  equations :=
    [⟨"pressao", "Pressão",
      "p = F / A", ["p", "F", "A"]⟩,
     ⟨"pressao_hidrostatica", "Pressão Hidrostática",
      "p = ρ * CONSTANT_g * h", ["p", "ρ", "CONSTANT_g", "h"]⟩,
     ⟨"teorema_stevin", "Teorema de Stevin",
      "p2 - p1 = ρ * CONSTANT_g * (h2 - h1)", ["p2", "p1", "ρ", "CONSTANT_g", "h2", "h1"]⟩,
     ⟨"principio_pascal", "Princípio de Pascal",
      "F2 / F1 = A2 / A1", ["F2", "F1", "A2", "A1"]⟩,
     ⟨"empuxo", "Empuxo (Princípio de Arquimedes)",
      "E = ρ_f * CONSTANT_g * V", ["E", "ρ_f", "CONSTANT_g", "V"]⟩,
     ⟨"densidade", "Densidade",
      "ρ = m / V", ["ρ", "m", "V"]⟩]

/-- The equations of the subarea `termometria`. -/
def termometria : Subarea where
  key := "termometria"
  name := "Termometria"
  equations :=
    [⟨"conversao_celsius_fahrenheit", "Conversão Celsius para Fahrenheit",
      "F = (9/5) * C + 32", ["F", "C"]⟩,
     ⟨"conversao_fahrenheit_celsius", "Conversão Fahrenheit para Celsius",
      "C = (5/9) * (F - 32)", ["C", "F"]⟩,
     ⟨"conversao_celsius_kelvin", "Conversão Celsius para Kelvin",
      "K = C + 273.15", ["K", "C"]⟩,
     ⟨"dilatacao_linear", "Dilatação Linear",
      "ΔL = L0 * α * ΔT", ["ΔL", "L0", "α", "ΔT"]⟩,
     ⟨"dilatacao_superficial", "Dilatação Superficial",
      "ΔA = A0 * β * ΔT", ["ΔA", "A0", "β", "ΔT"]⟩,
     ⟨"dilatacao_volumetrica", "Dilatação Volumétrica",
      "ΔV = V0 * γ * ΔT", ["ΔV", "V0", "γ", "ΔT"]⟩]

/-- The equations of the subarea `calorimetria`. -/
def calorimetria : Subarea where
  key := "calorimetria"
  name := "Calorimetria"
  equations :=
    [⟨"calor_sensivel", "Calor Sensível",
      "Q = m * c * ΔT", ["Q", "m", "c", "ΔT"]⟩,
     ⟨"calor_latente", "Calor Latente",
      "Q = m * L", ["Q", "m", "L"]⟩,
     ⟨"capacidade_termica", "Capacidade Térmica",
      "C = Q / ΔT", ["C", "Q", "ΔT"]⟩,
     ⟨"calor_especifico", "Calor Específico",
      "c = Q / (m * ΔT)", ["c", "Q", "m", "ΔT"]⟩,
     ⟨"potencia_termica", "Potência Térmica",
      "P = Q / t", ["P", "Q", "t"]⟩]

/-- The equations of the subarea `termodinamica`. -/
def termodinamica : Subarea where
  key := "termodinamica"
  name := "Termodinâmica"
  equations :=
    [⟨"lei_dos_gases_ideais", "Equação de Estado dos Gases Ideais",
      "p * V = n * CONSTANT_R * T", ["p", "V", "n", "CONSTANT_R", "T"]⟩,
     ⟨"transformacao_isotermica", "Transformação Isotérmica (Lei de Boyle)",
      "p1 * V1 = p2 * V2", ["p1", "V1", "p2", "V2"]⟩,
     ⟨"transformacao_isobarica", "Transformação Isobárica (Lei de Charles)",
      "V1 / T1 = V2 / T2", ["V1", "T1", "V2", "T2"]⟩,
     ⟨"transformacao_isocorica", "Transformação Isocórica (Lei de Gay-Lussac)",
      "p1 / T1 = p2 / T2", ["p1", "T1", "p2", "T2"]⟩,
     ⟨"trabalho_termodinamico", "Trabalho Termodinâmico",
      "W = p * ΔV", ["W", "p", "ΔV"]⟩,
     ⟨"primeira_lei_termodinamica", "Primeira Lei da Termodinâmica",
      "ΔU = Q - W", ["ΔU", "Q", "W"]⟩,
     ⟨"rendimento_maquina_termica", "Rendimento de Máquina Térmica",
      "η = W / Q_h", ["η", "W", "Q_h"]⟩,
     ⟨"rendimento_maquina_carnot", "Rendimento de Carnot",
      "η = 1 - (T_f / T_q)", ["η", "T_f", "T_q"]⟩]

/-- The equations of the subarea `ondas_mecanicas`. -/
def ondasMecanicas : Subarea where
  key := "ondas_mecanicas"
  name := "Ondas Mecânicas"
  equations :=
    [⟨"velocidade_onda", "Velocidade da Onda",
      "v = λ * f", ["v", "λ", "f"]⟩,
     ⟨"periodo_onda", "Período",
      "T = 1 / f", ["T", "f"]⟩,
     ⟨"frequencia_onda", "Frequência",
      "f = 1 / T", ["f", "T"]⟩,
     ⟨"velocidade_onda_corda", "Velocidade de Ondas em Cordas",
      "v = sqrt(F / μ)", ["v", "F", "μ"]⟩,
     ⟨"equacao_onda", "Equação da Onda",
      "y = A * sin(k * x - ω * t)", ["y", "A", "k", "x", "ω", "t"]⟩,
     ⟨"numero_onda", "Número de Onda",
      "k = 2 * pi / λ", ["k", "λ"]⟩,
     ⟨"frequencia_angular", "Frequência Angular",
      "ω = 2 * pi * f", ["ω", "f"]⟩]

/-- The equations of the subarea `acustica`. -/
def acustica : Subarea where
  key := "acustica"
  name := "Acústica"
  equations :=
    [⟨"velocidade_som_ar", "Velocidade do Som no Ar",
      "v = 331 + 0.6 * T", ["v", "T"]⟩,
     ⟨"efeito_doppler", "Efeito Doppler",
      "f' = f * ((v + v_o) / (v - v_f))", ["f'", "f", "v", "v_o", "v_f"]⟩,
     ⟨"intensidade_sonora", "Intensidade Sonora",
      "I = P / A", ["I", "P", "A"]⟩,
     ⟨"nivel_intensidade_sonora", "Nível de Intensidade Sonora",
      "β = 10 * log(I / I_0)", ["β", "I", "I_0"]⟩]

/-- The equations of the subarea `optica`. -/
def optica : Subarea where
  key := "optica"
  name := "Óptica"
  equations :=
    [⟨"lei_snell_descartes", "Lei de Snell-Descartes",
      "n1 * sin(θ1) = n2 * sin(θ2)", ["n1", "θ1", "n2", "θ2"]⟩,
     ⟨"espelhos_planos_distancia_imagem", "Espelhos Planos (Distância da Imagem)",
      "p' = p", ["p'", "p"]⟩,
     ⟨"espelhos_esfericos_equacao_gauss", "Equação de Gauss para Espelhos",
      "1/f = 1/p + 1/p'", ["f", "p", "p'"]⟩,
     ⟨"aumento_linear_espelhos", "Aumento Linear (Espelhos)",
      "A = -p'/p", ["A", "p'", "p"]⟩,
     ⟨"lentes_equacao_gauss", "Equação de Gauss para Lentes",
      "1/f = 1/p + 1/p'", ["f", "p", "p'"]⟩,
     ⟨"aumento_linear_lentes", "Aumento Linear (Lentes)",
      "A = p'/p", ["A", "p'", "p"]⟩,
     ⟨"vergencia", "Vergência (Dioptria)",
      "C = 1/f", ["C", "f"]⟩]

/-- The equations of the subarea `eletrostatica`. -/
def eletrostatica : Subarea where
  key := "eletrostatica"
  name := "Eletrostática"
  equations :=
    [⟨"lei_coulomb", "Lei de Coulomb",
      "F = CONSTANT_k * abs(q1 * q2) / r^2", ["F", "CONSTANT_k", "q1", "q2", "r"]⟩,
     ⟨"campo_eletrico", "Campo Elétrico",
      "E = F / q", ["E", "F", "q"]⟩,
     ⟨"campo_carga_pontual", "Campo de Carga Pontual",
      "E = CONSTANT_k * abs(q) / r^2", ["E", "CONSTANT_k", "q", "r"]⟩,
     ⟨"potencial_eletrico", "Potencial Elétrico",
      "V = CONSTANT_k * q / r", ["V", "CONSTANT_k", "q", "r"]⟩,
     ⟨"trabalho_campo_eletrico", "Trabalho do Campo Elétrico",
      "W = q * (V_a - V_b)", ["W", "q", "V_a", "V_b"]⟩,
     ⟨"capacitancia", "Capacitância",
      "C = Q / V", ["C", "Q", "V"]⟩,
     ⟨"capacitor_placas_paralelas", "Capacitor de Placas Paralelas",
      "C = (ε * A) / d", ["C", "ε", "A", "d"]⟩,
     ⟨"energia_campo_eletrico", "Energia Armazenada em Capacitor",
      "E = (1/2) * C * V^2", ["E", "C", "V"]⟩]

/-- The equations of the subarea `eletrodinamica`. -/
def eletrodinamica : Subarea where
  key := "eletrodinamica"
  name := "Eletrodinâmica"
  equations :=
    [⟨"corrente_eletrica", "Corrente Elétrica",
      "I = Q / t", ["I", "Q", "t"]⟩,
     ⟨"lei_ohm", "Lei de Ohm",
      "V = R * I", ["V", "R", "I"]⟩,
     ⟨"resistencia_eletrica", "Resistência Elétrica",
      "R = ρ * L / A", ["R", "ρ", "L", "A"]⟩,
     ⟨"potencia_eletrica", "Potência Elétrica",
      "P = V * I", ["P", "V", "I"]⟩,
     ⟨"efeito_joule", "Efeito Joule",
      "Q = R * I^2 * t", ["Q", "R", "I", "t"]⟩]

/-- The equations of the subarea `relatividade`. -/
def relatividade : Subarea where
  key := "relatividade"
  name := "Relatividade"
  equations :=
    [⟨"dilatacao_tempo", "Dilatação do Tempo",
      "Δt = Δt0 / sqrt(1 - v^2/c^2)", ["Δt", "Δt0", "v", "c"]⟩,
     ⟨"contracao_espaco", "Contração do Espaço",
      "L = L0 * sqrt(1 - v^2/c^2)", ["L", "L0", "v", "c"]⟩,
     ⟨"equivalencia_massa_energia", "Equivalência Massa-Energia",
      "E = m * c^2", ["E", "m", "c"]⟩]

/-- The equations of the subarea `fisica_quantica`. -/
def fisicaQuantica : Subarea where
  key := "fisica_quantica"
  name := "Física Quântica"
  equations :=
    [⟨"energia_foton", "Energia do Fóton",
      "E = CONSTANT_h * f", ["E", "CONSTANT_h", "f"]⟩,
     ⟨"efeito_fotoeletrico", "Efeito Fotoelétrico",
      "CONSTANT_h * f = φ + E_k", ["CONSTANT_h", "f", "φ", "E_k"]⟩,
     ⟨"comprimento_onda_de_broglie", "Comprimento de Onda de De Broglie",
      "λ = CONSTANT_h / (m * v)", ["λ", "CONSTANT_h", "m", "v"]⟩]

/-- The areas of the standard catalog. -/
def standardOutline : List (String × String × List Subarea) :=
  [("mecanica", "Mecânica",
    [cinematica, dinamica, energia, hidrostatica]),
   ("termologia", "Termologia",
    [termometria, calorimetria, termodinamica]),
   ("ondulatoria", "Ondulatória",
    [ondasMecanicas, acustica, optica]),
   ("eletricidade", "Eletricidade",
    [eletrostatica, eletrodinamica]),
   ("fisica_moderna", "Física Moderna",
    [relatividade, fisicaQuantica])]

/-- The catalog that comes with the calculator. -/
def standard : Catalog := ofOutline standardConstants standardUnits standardOutline

end Formulary.Catalog
